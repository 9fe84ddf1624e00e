import Mathlib.Data.List.Induction
import TreeQuery.Proofs.Tree.Forest
import TreeQuery.Proofs.TreeView.Embedding
import TreeQuery.Proofs.Walk.Bound
/-!
# Siblings read off child lists

The siblings of a node are its neighbours in the child list of its parent. A tree may keep links to
them, or look the node up in that list each time (`sibling`); a forest links the nodes that the
look-up finds (`siblingsListed_view`), and the siblings before and after a child are then the
children before and after it (`SiblingsListed.preceding_eq`). Where both of two trees have the
siblings that their child lists say, an outline of one in the other is an embedding
(`Outline.embedding`).
-/
namespace TreeQuery

/-- A value is found among the places of values where it is found among the values. -/
theorem idxOf?_map {α β : Type} [DecidableEq α] [DecidableEq β] {known : Set α} {place : α → β}
    (injective : Set.InjOn place known) {values : List α}
    (allKnown : ∀ value ∈ values, value ∈ known) {value : α} (valueKnown : value ∈ known) :
    (values.map place).idxOf? (place value) = values.idxOf? value := by
  induction values with
  | nil => rfl
  | cons first rest ih =>
    have firstKnown := allKnown first List.mem_cons_self
    have others := ih fun value listed => allKnown value (List.mem_cons_of_mem _ listed)
    simp only [List.map_cons, List.idxOf?_cons, beq_iff_eq, injective.eq_iff firstKnown valueKnown,
      others]

/-- The position of a value is the number of values before it, if it is none of them. -/
theorem idxOf?_append_cons {α : Type} [DecidableEq α] {before : List α} {value : α}
    (fresh : value ∉ before) (after : List α) :
    (before ++ value :: after).idxOf? value = some before.length := by
  induction before with
  | nil => simp [List.idxOf?_cons]
  | cons first rest ih =>
    obtain ⟨different, others⟩ := List.ne_and_not_mem_of_not_mem_cons fresh
    simp [List.idxOf?_cons, different.symm, ih others]

namespace TreeView

variable {ν μ : Type} [DecidableEq ν] [DecidableEq μ]

/-- The position before another, if there is one. -/
def positionBefore : Nat → Option Nat
  | 0 => none
  | position + 1 => some position

/-- The position after another. -/
def positionAfter (position : Nat) : Option Nat := some (position + 1)

/-- The node in the child list of the parent of a node whose position there is told from the
position of the node. -/
def sibling (view : TreeView ν) (shift : Nat → Option Nat) (node : ν) : Option ν := do
  let parent ← view.parent node
  let position ← (view.children parent).idxOf? node
  let shifted ← shift position
  (view.children parent)[shifted]?

/-- No sibling is looked up for a node without a parent. -/
theorem sibling_of_alone {view : TreeView ν} {node : ν} (alone : view.parent node = none)
    (shift : Nat → Option Nat) : view.sibling shift node = none := by
  simp [sibling, alone]

/-- The siblings of every node are those that the child list of its parent says. -/
structure SiblingsListed (view : TreeView ν) : Prop where
  /-- The sibling before a node is the child before it. -/
  previous : view.previous = view.sibling positionBefore
  /-- The sibling after a node is the child after it. -/
  next : view.next = view.sibling positionAfter

/-- Child lists name no node twice, and name nodes whose parent they belong to. -/
structure Families (view : TreeView ν) : Prop where
  /-- No child list names a node twice. -/
  distinct : ∀ node, (view.children node).Nodup
  /-- A child list names nodes whose parent it belongs to. -/
  parent : ∀ {parent child}, child ∈ view.children parent → view.parent child = some parent

namespace Families

variable {view : TreeView ν} (families : view.Families) {parent child : ν} {before after : List ν}
  (split : view.children parent = before ++ child :: after)

include families split

/-- A look-up from a child goes by the number of children before it. -/
theorem sibling_eq (shift : Nat → Option Nat) :
    view.sibling shift child =
      (shift before.length).bind fun position => (before ++ child :: after)[position]? := by
  have distinct := families.distinct parent
  rw [split] at distinct
  have fresh : child ∉ before := fun again =>
    (List.nodup_append.mp distinct).2.2 child again child List.mem_cons_self rfl
  have above : view.parent child = some parent := families.parent (by simp [split])
  simp only [sibling, above, split, idxOf?_append_cons fresh, Option.bind_eq_bind,
    Option.bind_some]

/-- The sibling looked up before a child is the last one before it. -/
theorem sibling_before : view.sibling positionBefore child = before.getLast? := by
  rw [families.sibling_eq split]
  rcases List.eq_nil_or_concat before with rfl | ⟨earlier, last, rfl⟩
  · rfl
  · simp [positionBefore]

/-- The sibling looked up after a child is the first one after it. -/
theorem sibling_after : view.sibling positionAfter child = after.head? := by
  rw [families.sibling_eq split]
  simp [positionAfter, List.getElem?_append_right, List.head?_eq_getElem?]

end Families

section Lists

variable {view : TreeView ν} (families : view.Families) (listed : view.SiblingsListed)
  {parent child : ν} {before after : List ν}

include families listed

/-- Going back from a child meets the children before it, the nearest first. -/
theorem SiblingsListed.meets_before (split : view.children parent = before ++ child :: after) :
    Walk.Meets view.previous child before.reverse := by
  induction before using List.reverseRec generalizing child after with
  | nil =>
    refine .nil ?_
    rw [listed.previous, families.sibling_before split]
    rfl
  | append_singleton earlier last ih =>
    have back : view.children parent = earlier ++ last :: child :: after := by
      rw [split, List.append_assoc]
      rfl
    rw [List.reverse_append]
    refine .cons ?_ (ih back)
    rw [listed.previous, families.sibling_before split, List.getLast?_concat]

/-- Going on from a child meets the children after it. -/
theorem SiblingsListed.meets_after (split : view.children parent = before ++ child :: after) :
    Walk.Meets view.next child after := by
  induction after generalizing before child with
  | nil =>
    refine .nil ?_
    rw [listed.next, families.sibling_after split]
    rfl
  | cons first later ih =>
    have onward : view.children parent = (before ++ [child]) ++ first :: later := by
      rw [split, List.append_assoc]
      rfl
    refine .cons ?_ (ih onward)
    rw [listed.next, families.sibling_after split, List.head?_cons]

variable (noCircles : view.NoCircles) (split : view.children parent = before ++ child :: after)

include noCircles split

/-- The siblings before a child are the children before it, the nearest first. -/
theorem SiblingsListed.preceding_eq : view.preceding child = before.reverse :=
  Walk.chain_eq_of_meets (listed.meets_before families split) (noCircles.within_previous child)

/-- The siblings after a child are the children after it. -/
theorem SiblingsListed.following_eq : view.following child = after :=
  Walk.chain_eq_of_meets (listed.meets_after families split) (noCircles.within_next child)

end Lists

section Alone

variable {view : TreeView ν} (listed : view.SiblingsListed) (noCircles : view.NoCircles) {node : ν}
  (alone : view.parent node = none)

include listed noCircles alone

/-- No siblings are before a node without a parent. -/
theorem SiblingsListed.preceding_of_alone : view.preceding node = [] := by
  have ends : view.previous node = none := by rw [listed.previous, sibling_of_alone alone]
  exact Walk.chain_eq_of_meets (.nil ends) (noCircles.within_previous node)

/-- No siblings are after a node without a parent. -/
theorem SiblingsListed.following_of_alone : view.following node = [] := by
  have ends : view.next node = none := by rw [listed.next, sibling_of_alone alone]
  exact Walk.chain_eq_of_meets (.nil ends) (noCircles.within_next node)

end Alone

/-- What child lists say of the siblings of nodes, they say of their places. -/
theorem Outline.sibling {view : TreeView ν} {other : TreeView μ} (outline : view.Outline other)
    (shift : Nat → Option Nat) : Walk.Carries outline.nodes outline.place
      (view.sibling shift) (other.sibling shift) where
  closed {node met} known leads := by
    simp only [TreeView.sibling, Option.bind_eq_bind, Option.bind_eq_some_iff] at leads
    obtain ⟨parent, above, position, _, shifted, _, found⟩ := leads
    exact outline.children_mem parent (outline.parent.closed known above) met
      (List.mem_of_getElem? found)
  same {node} known := by
    simp only [TreeView.sibling, outline.parent.same known]
    cases above : view.parent node with
    | none => rfl
    | some parent =>
      have parentKnown := outline.parent.closed known above
      have position := idxOf?_map outline.injective (outline.children_mem parent parentKnown) known
      simp only [Option.map_some, Option.bind_eq_bind, Option.bind_some,
        outline.children parent parentKnown, position, List.getElem?_map, Option.map_bind,
        Function.comp_def]

/-- An outline is an embedding when both trees have the siblings that their child lists say. -/
def Outline.embedding {view : TreeView ν} {other : TreeView μ} (outline : view.Outline other)
    (listed : view.SiblingsListed) (listedOther : other.SiblingsListed) :
    view.Embedding other where
  toOutline := outline
  previous := by
    rw [listed.previous, listedOther.previous]
    exact outline.sibling positionBefore
  next := by
    rw [listed.next, listedOther.next]
    exact outline.sibling positionAfter

/-- The tree of a host that keeps parents and child lists and reads siblings off them. Of the data
of a tree it shows what texts hold. -/
def relisted (view : TreeView ν) : TreeView ν where
  root := view.root
  kind := view.kind
  tagName := view.tagName
  attributeOf := view.attributeOf
  text node := if view.kind node = .text then view.text node else none
  parent := view.parent
  previous := view.sibling positionBefore
  next := view.sibling positionAfter
  children := view.children
  size := view.size
  bounded := by
    obtain ⟨nodes, fits, linked⟩ := view.bounded
    have owned : ∀ {node shift}, view.sibling shift node ≠ none → view.parent node ≠ none := by
      intro node shift found alone
      exact found (by simp [sibling, alone])
    refine ⟨nodes, fits, fun node reaches => linked node ?_⟩
    rcases reaches with above | before | after | below
    · exact .inl above
    · exact .inl (owned before)
    · exact .inl (owned after)
    · exact .inr (.inr (.inr below))

/-- A tree is outlined in the one that reads siblings off its child lists. -/
def outlineRelisted (view : TreeView ν) : view.Outline view.relisted where
  nodes := Set.univ
  place := id
  injective := Set.injOn_id _
  root_mem := Set.mem_univ _
  root := rfl
  kind _ _ := rfl
  tagName _ _ := rfl
  attributeOf _ _ := rfl
  text _ _ holds := if_pos holds
  parent := ⟨fun _ _ => Set.mem_univ _, fun _ => Option.map_id_apply.symm⟩
  children_mem _ _ _ _ := Set.mem_univ _
  children _ _ := (List.map_id _).symm

/-- Where links between siblings are what child lists say, reading them off closes no circle. -/
theorem NoCircles.relisted {view : TreeView ν} (noCircles : view.NoCircles)
    (listed : view.SiblingsListed) : view.relisted.NoCircles where
  parent := noCircles.parent
  previous := by
    have same : view.relisted.previous = view.previous := listed.previous.symm
    rw [same]
    exact noCircles.previous
  next := by
    have same : view.relisted.next = view.next := listed.next.symm
    rw [same]
    exact noCircles.next
  children := noCircles.children

end TreeView

namespace Tree.Forest

variable {tree : Tree}

/-- The child lists of a forest name the nodes whose parent they belong to, each once. -/
theorem families (forest : tree.Forest) : tree.view.Families :=
  ⟨forest.distinct, fun {parent child} names => (forest.listed parent child).mp names⟩

/-- The links between the siblings of a forest are what its child lists say. -/
theorem siblingsListed_view (forest : tree.Forest) : tree.view.SiblingsListed := by
  constructor
  case previous =>
    funext id
    change tree.previous id = _
    cases above : tree.parent id with
    | none => rw [(forest.alone above).1, TreeView.sibling_of_alone above]
    | some parent =>
      obtain ⟨before, after, split⟩ := List.append_of_mem ((forest.listed parent id).mpr above)
      rw [(forest.beside split).1, forest.families.sibling_before split]
  case next =>
    funext id
    change tree.next id = _
    cases above : tree.parent id with
    | none => rw [(forest.alone above).2, TreeView.sibling_of_alone above]
    | some parent =>
      obtain ⟨before, after, split⟩ := List.append_of_mem ((forest.listed parent id).mpr above)
      rw [(forest.beside split).2, forest.families.sibling_after split]

end Tree.Forest

end TreeQuery
