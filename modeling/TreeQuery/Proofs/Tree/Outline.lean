import Mathlib.Algebra.GroupWithZero.Nat
import Mathlib.Data.List.TakeWhile
import TreeQuery.Proofs.Tree.Neighbours
import TreeQuery.Proofs.Walk.Positions
import TreeQuery.Proofs.Walk.Stack
import TreeQuery.Tree.Render
/-!
# Outlines

An outline shows the nodes that a traversal lists, each on its line, indented by the number of steps
down to it, and stops before the first one that is too deep to be indented
(`outline_lists_descendants`). It goes down by recursion and keeps the depth, where a traversal
keeps a stack and no depth: what the two have in common are the positions below a node, in
lexicographic order, be it that a node has several. The bound of the recursion changes nothing where
child lists lead in no circle (`outline_eq_append`), and a tree of less than 2^62 nodes is shown
whole (`outlined_of_size`).
-/
namespace TreeQuery.Tree

variable {tree : Tree}

/-- The line of the node at a position, behind two spaces for each step down to it. -/
def placedLine (tree : Tree) (depth : Nat) (entry : List Nat × NodeId) : String :=
  String.ofList (List.replicate (2 * (depth + entry.1.length)) ' ') ++ tree.line entry.2

/-- A line that is less than 2^62 steps deep is printed behind two spaces for each step. -/
theorem indentedLine_eq (depth : Nat) (id : NodeId) : tree.indentedLine depth id =
    .ofLine (if decide (depth < 2 ^ 62) then
      some (String.ofList (List.replicate (2 * depth) ' ') ++ tree.line id) else none) := by
  have same : 2 * depth < 9223372036854775808 ↔ depth < 2 ^ 62 := by omega
  rw [indentedLine, indentation?]
  by_cases fits : depth < 2 ^ 62
  · rw [if_pos (same.mpr fits), if_pos (decide_eq_true fits), Option.map_some]
  · rw [if_neg (mt same.mp fits), if_neg (mt of_decide_eq_true fits), Option.map_none]

/-- An outline prints the lines of the positions down to its bound. -/
theorem outlineWithin_eq_concat (bound depth : Nat) (id : NodeId) :
    tree.outlineWithin bound depth id = .concat ((Walk.placed tree.children bound id).map
      fun entry => tree.indentedLine (depth + entry.1.length) entry.2) := by
  induction bound generalizing depth id with
  | zero => exact (Printout.append_empty _).symm
  | succ bound ih =>
    have deeper : ∀ place (entry : List Nat × NodeId),
        tree.indentedLine (depth + (place :: entry.1).length) entry.2 =
          tree.indentedLine (depth + 1 + entry.1.length) entry.2 := by
      intro place entry
      rw [List.length_cons, Nat.add_right_comm depth 1, Nat.add_assoc]
    have inside := funext (ih (depth + 1))
    rw [outlineWithin, Walk.placed, List.map_cons, Walk.map_flatMap_placed deeper, inside,
      Printout.concat_cons, Printout.concat_flatMap]
    rfl

/-- An outline shows the positions down to its bound, up to the first one that is too deep. -/
theorem outlineWithin_eq_takeWhile (bound depth : Nat) (id : NodeId) :
    tree.outlineWithin bound depth id =
      ⟨((Walk.placed tree.children bound id).takeWhile fun entry =>
          decide (depth + entry.1.length < 2 ^ 62)).map (tree.placedLine depth),
        (Walk.placed tree.children bound id).all fun entry =>
          decide (depth + entry.1.length < 2 ^ 62)⟩ := by
  simp only [outlineWithin_eq_concat, indentedLine_eq]
  exact Printout.concat_ofLine _ (tree.placedLine depth) _

/-- An outline shows every position when none is too deep. -/
theorem outline_eq_map {id : NodeId} {depth : Nat}
    (fits : ∀ entry ∈ Walk.placed tree.children tree.size id, depth + entry.1.length < 2 ^ 62) :
    tree.outline id depth =
      ⟨(Walk.placed tree.children tree.size id).map (tree.placedLine depth), true⟩ := by
  have all : ∀ entry ∈ Walk.placed tree.children tree.size id,
      decide (depth + entry.1.length < 2 ^ 62) = true := fun entry listed =>
    decide_eq_true (fits entry listed)
  rw [outline, outlineWithin_eq_takeWhile, List.takeWhile_eq_self_iff.mpr all,
    List.all_eq_true.mpr all]

/-- An outline shows the positions before one that is too deep, and stops there. -/
theorem outline_eq_takeWhile {id : NodeId} {depth : Nat}
    (deep : ∃ entry ∈ Walk.placed tree.children tree.size id,
      2 ^ 62 ≤ depth + entry.1.length) :
    tree.outline id depth = ⟨((Walk.placed tree.children tree.size id).takeWhile fun entry =>
      decide (depth + entry.1.length < 2 ^ 62)).map (tree.placedLine depth), false⟩ := by
  obtain ⟨entry, listed, far⟩ := deep
  have ended : (Walk.placed tree.children tree.size id).all
      (fun entry => decide (depth + entry.1.length < 2 ^ 62)) = false :=
    List.all_eq_false.mpr ⟨entry, listed, by simpa using far⟩
  rw [outline, outlineWithin_eq_takeWhile, ended]

/-- Two bounds that no way down reaches give the same outline. -/
theorem outlineWithin_eq_of_within {bound other : Nat} {id : NodeId}
    (within : Walk.Within (Walk.Names tree.children) bound id)
    (withinOther : Walk.Within (Walk.Names tree.children) other id) (depth : Nat) :
    tree.outlineWithin bound depth id = tree.outlineWithin other depth id := by
  induction bound generalizing other id depth with
  | zero =>
    have childless : tree.children id = [] := List.eq_nil_iff_forall_not_mem.mpr within
    cases other with
    | zero => rfl
    | succ other =>
      rw [outlineWithin, outlineWithin, childless]
      exact (Printout.append_empty _).symm
  | succ bound ih =>
    cases other with
    | zero =>
      have childless : tree.children id = [] := List.eq_nil_iff_forall_not_mem.mpr withinOther
      rw [outlineWithin, outlineWithin, childless]
      exact Printout.append_empty _
    | succ other =>
      have alike : (tree.children id).map (tree.outlineWithin bound (depth + 1)) =
          (tree.children id).map (tree.outlineWithin other (depth + 1)) :=
        List.map_congr_left fun child listed =>
          ih (within child listed) (withinOther child listed) (depth + 1)
      rw [outlineWithin, outlineWithin, alike]

/-- Whether an outline of a node at a depth comes to an end, with no line too deep to be shown. -/
structure Outlined (tree : Tree) (id : NodeId) (depth : Nat) : Prop where
  /-- Child lists lead in no circle. -/
  noCircle : Walk.NoCircle (Walk.Names tree.children)
  /-- Every position below the node is less than 2^62 steps deep. -/
  fits : ∀ position node, Walk.at? tree.children id position = some node →
    depth + position.length < 2 ^ 62

/-- An outline that comes to an end shows every position. -/
theorem Outlined.outline_eq {id : NodeId} {depth : Nat} (outlined : tree.Outlined id depth) :
    tree.outline id depth =
      ⟨(Walk.placed tree.children tree.size id).map (tree.placedLine depth), true⟩ := by
  have within : Walk.Within (Walk.Names tree.children) tree.size id :=
    tree.view.within_children_of_noCircle outlined.noCircle id
  exact outline_eq_map fun entry listed =>
    outlined.fits entry.1 entry.2 ((Walk.mem_placed_iff within).mp listed)

section NoCircle

variable (noCircle : Walk.NoCircle (Walk.Names tree.children))

include noCircle

/-- An outline is the line of its node, and the outlines of the children one step deeper. -/
theorem outline_eq_append (id : NodeId) (depth : Nat) :
    tree.outline id depth = tree.indentedLine depth id ++
      .concat ((tree.children id).map fun child => tree.outline child (depth + 1)) := by
  have within : Walk.Within (Walk.Names tree.children) tree.size id :=
    tree.view.within_children_of_noCircle noCircle id
  have larger := within.mono (Nat.le_succ tree.size)
  exact outlineWithin_eq_of_within within larger depth

/-- In a tree of less than 2^62 nodes no line is too deep at the top. -/
theorem outlined_of_size {depth : Nat} (small : depth + tree.size < 2 ^ 62) (id : NodeId) :
    tree.Outlined id depth where
  noCircle := noCircle
  fits position node stands := by
    have within : Walk.Within (Walk.Names tree.children) tree.size id :=
      tree.view.within_children_of_noCircle noCircle id
    have bounded : position.length ≤ tree.size := within.length_le_of_at? stands
    omega

/-- An outline shows a node and what a traversal lists below it, in that order, once for each
position below the node, and each line is indented by two spaces for each step down, when no
position is 2^62 steps deep. Otherwise it shows those before the first one that is, and stops. -/
theorem outline_lists_descendants (id : NodeId) (depth : Nat) :
    ∃ entries : List (List Nat × NodeId),
      (entries.Pairwise fun former latter => List.Lex (· < ·) former.1 latter.1) ∧
      (∀ position node, (position, node) ∈ entries ↔
        Walk.at? tree.children id position = some node) ∧
      entries.map Prod.snd = id :: tree.descendants id ∧
      Walk.Lists tree.children (tree.children id).reverse (tree.descendants id) ∧
      ((∀ entry ∈ entries, depth + entry.1.length < 2 ^ 62) →
        tree.outline id depth = ⟨entries.map fun entry =>
          String.ofList (List.replicate (2 * (depth + entry.1.length)) ' ') ++
            tree.line entry.2, true⟩) ∧
      ((∃ entry ∈ entries, 2 ^ 62 ≤ depth + entry.1.length) →
        tree.outline id depth =
          ⟨(entries.takeWhile fun entry => depth + entry.1.length < 2 ^ 62).map fun entry =>
            String.ofList (List.replicate (2 * (depth + entry.1.length)) ' ') ++
              tree.line entry.2, false⟩) := by
  have within : Walk.Within (Walk.Names tree.children) tree.size id :=
    tree.view.within_children_of_noCircle noCircle id
  have below : tree.descendants id = Walk.below tree.children tree.size id :=
    tree.view.descendants_eq_below id
  have ordered : Walk.DocumentOrder tree.children (tree.children id) (tree.descendants id) :=
    tree.view.documentOrder_of_noCircle noCircle id
  refine ⟨Walk.placed tree.children tree.size id, Walk.sorted_placed _ _, ?_, ?_,
    Walk.lists_of_documentOrder ordered, outline_eq_map, outline_eq_takeWhile⟩
  · exact fun position node => Walk.mem_placed_iff within
  · rw [Walk.map_snd_placed, below]

end NoCircle

/-- A list with an item that was put beside the list, too. -/
def raisedItem : Tree :=
  (Edit.append 0 2).apply ((Edit.insert 1 (.element "li" .empty)).apply
    ((Edit.insert 0 (.element "ul" .empty)).apply .empty))

/-- No child list in that tree leads back. -/
theorem noCircle_raisedItem : Walk.NoCircle (Walk.Names raisedItem.children) := by
  apply noCircle_children_of_lt
  decide

/-- The item is shown twice, once in the list and once beside it, where it is indented less. Two
steps before the indentation is too wide, the root and the list are shown, and nothing behind. -/
theorem outline_lists_descendants_raisedItem :
    Walk.NoCircle (Walk.Names raisedItem.children) ∧
    raisedItem.outline root 1 =
      ⟨["  Document", "    <ul>", "      <li>", "    <li>"], true⟩ ∧
    (raisedItem.outline root (2 ^ 62 - 2)).lines.length = 2 ∧
    ∃ entries : List (List Nat × NodeId),
      (entries.Pairwise fun former latter => List.Lex (· < ·) former.1 latter.1) ∧
      (∀ position node, (position, node) ∈ entries ↔
        Walk.at? raisedItem.children root position = some node) ∧
      entries.map Prod.snd = root :: raisedItem.descendants root ∧
      Walk.Lists raisedItem.children (raisedItem.children root).reverse
        (raisedItem.descendants root) ∧
      ((∀ entry ∈ entries, 1 + entry.1.length < 2 ^ 62) →
        raisedItem.outline root 1 = ⟨entries.map fun entry =>
          String.ofList (List.replicate (2 * (1 + entry.1.length)) ' ') ++
            raisedItem.line entry.2, true⟩) ∧
      ((∃ entry ∈ entries, 2 ^ 62 ≤ 1 + entry.1.length) →
        raisedItem.outline root 1 =
          ⟨(entries.takeWhile fun entry => 1 + entry.1.length < 2 ^ 62).map fun entry =>
            String.ofList (List.replicate (2 * (1 + entry.1.length)) ' ') ++
              raisedItem.line entry.2, false⟩) :=
  ⟨noCircle_raisedItem, by decide, by decide,
    outline_lists_descendants noCircle_raisedItem root 1⟩

/-- At depth 2^62 not even the line of the root is shown, the one node that a traversal lists. -/
theorem outline_lists_descendants_tooDeep :
    Walk.NoCircle (Walk.Names empty.children) ∧ empty.content root = some .document ∧
    root :: empty.descendants root = [root] ∧ empty.outline root (2 ^ 62) = ⟨[], false⟩ ∧
    (empty.outline root (2 ^ 62)).lines ≠
      [String.ofList (List.replicate (2 * (2 ^ 62 + 0)) ' ') ++ empty.line root] := by
  have stopped : empty.outline root (2 ^ 62) = ⟨[], false⟩ := by decide
  have alone : empty.descendants root = [] := empty.view.descendants_eq_below root
  refine ⟨?_, rfl, congrArg (root :: ·) alone, stopped, ?_⟩
  · apply noCircle_children_of_lt
    decide
  · rw [stopped]
    exact (List.cons_ne_nil _ _).symm

end TreeQuery.Tree
