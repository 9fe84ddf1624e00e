import TreeQuery.Proofs.Walk.DocumentOrder
/-!
# Positions below a node

A way down from a node is named by its position: the places in the child lists to go to, step by
step. A node that stands in several child lists, or several times in one, has several positions. The
positions below a node in lexicographic order are those of a traversal (`sorted_placed`), which
comes to every one of them where child lists lead in no circle (`mem_placed_iff`), and lists at each
the node that is there (`map_snd_placed`).
-/
namespace TreeQuery.Walk

variable {ν : Type} {children : ν → List ν}

/-- The node at a position. -/
def at? (children : ν → List ν) (node : ν) : List Nat → Option ν
  | [] => some node
  | place :: below => (children node)[place]?.bind fun child => at? children child below

/-- A node and the nodes below it down to a depth, each with its position, in document order. -/
def placed (children : ν → List ν) : Nat → ν → List (List Nat × ν)
  | 0, node => [([], node)]
  | depth + 1, node => ([], node) :: (children node).zipIdx.flatMap fun child =>
      (placed children depth child.1).map fun entry => (child.2 :: entry.1, entry.2)

/-- What is told of each entry without its first place is told child by child. -/
theorem map_flatMap_placed {β : Type} {tell inner : List Nat × ν → β}
    (same : ∀ place entry, tell (place :: entry.1, entry.2) = inner entry) (depth : Nat)
    (node : ν) :
    ((children node).zipIdx.flatMap fun child =>
      (placed children depth child.1).map fun entry => (child.2 :: entry.1, entry.2)).map tell =
      (children node).flatMap fun child => (placed children depth child).map inner := by
  simp only [List.map_flatMap, List.map_map, Function.comp_def, same]
  conv_rhs => rw [← List.zipIdx_map_fst 0 (children node)]
  rw [List.flatMap_map]

/-- The nodes at the positions are the node itself and those below it, in document order. -/
theorem map_snd_placed (depth : Nat) (node : ν) :
    (placed children depth node).map Prod.snd = node :: below children depth node := by
  induction depth generalizing node with
  | zero => rfl
  | succ depth ih =>
    have unplaced (place : Nat) (entry : List Nat × ν) :
        Prod.snd (place :: entry.1, entry.2) = Prod.snd entry := rfl
    rw [placed, List.map_cons, map_flatMap_placed unplaced]
    simp only [ih, below]

/-- The positions come in lexicographic order, each once. -/
theorem sorted_placed (depth : Nat) (node : ν) :
    (placed children depth node).Pairwise fun former latter =>
      List.Lex (· < ·) former.1 latter.1 := by
  induction depth generalizing node with
  | zero => exact List.pairwise_singleton _ _
  | succ depth ih =>
    have places : (children node).zipIdx.Pairwise fun former latter => former.2 < latter.2 := by
      rw [← List.pairwise_map, List.zipIdx_map_snd]
      exact List.pairwise_lt_range'
    rw [placed, List.pairwise_cons, List.pairwise_flatMap]
    refine ⟨?_, fun child _ => ?_, places.imp fun {former latter} before => ?_⟩
    · intro entry listed
      obtain ⟨child, -, inside⟩ := List.mem_flatMap.mp listed
      obtain ⟨deeper, -, rfl⟩ := List.mem_map.mp inside
      exact .nil
    · exact List.pairwise_map.mpr ((ih child.1).imp fun earlier => .cons earlier)
    · intro entry inside other insideOther
      obtain ⟨deeper, -, rfl⟩ := List.mem_map.mp inside
      obtain ⟨further, -, rfl⟩ := List.mem_map.mp insideOther
      exact .rel before

/-- A position is no longer than a bound on the ways down from its node. -/
theorem Within.length_le_of_at? {bound : Nat} {node found : ν} {position : List Nat}
    (within : Within (Names children) bound node)
    (stands : at? children node position = some found) : position.length ≤ bound := by
  induction position generalizing bound node with
  | nil => exact Nat.zero_le bound
  | cons place below ih =>
    obtain ⟨child, listed, deeper⟩ := Option.bind_eq_some_iff.mp stands
    have named : child ∈ children node := List.mem_of_getElem? listed
    cases bound with
    | zero => exact absurd named (within child)
    | succ bound => exact Nat.succ_le_succ (ih (within child named) deeper)

/-- Below the node itself, an entry is one of a child with the place of the child in front. -/
theorem mem_placed_succ_iff {depth : Nat} {node : ν} {place : Nat} {position : List Nat}
    {found : ν} : (place :: position, found) ∈ placed children (depth + 1) node ↔
      ∃ child, (children node)[place]? = some child ∧
        (position, found) ∈ placed children depth child := by
  simp only [placed, List.mem_cons, Prod.mk.injEq, reduceCtorEq, false_and, false_or,
    List.mem_flatMap, List.mem_zipIdx_iff_getElem?, List.mem_map, List.cons.injEq]
  constructor
  · rintro ⟨⟨child, _⟩, stands, ⟨_, _⟩, inside, ⟨rfl, rfl⟩, rfl⟩
    exact ⟨child, stands, inside⟩
  · rintro ⟨child, stands, inside⟩
    exact ⟨(child, place), stands, (position, found), inside, ⟨rfl, rfl⟩, rfl⟩

/-- Where no way down is longer than the depth, every position is listed with the node that is
there. -/
theorem mem_placed_iff {depth : Nat} {node : ν} (within : Within (Names children) depth node)
    {position : List Nat} {found : ν} : (position, found) ∈ placed children depth node ↔
      at? children node position = some found := by
  induction depth generalizing node position with
  | zero =>
    have childless : children node = [] := List.eq_nil_iff_forall_not_mem.mpr within
    cases position with
    | nil => simp [placed, at?, eq_comm]
    | cons place below => simp [placed, at?, childless]
  | succ depth ih =>
    cases position with
    | nil => simp [placed, at?, eq_comm]
    | cons place below =>
      rw [mem_placed_succ_iff, at?, Option.bind_eq_some_iff]
      refine exists_congr fun child => and_congr_right fun stands => ?_
      exact ih (within child (List.mem_of_getElem? stands))

end TreeQuery.Walk
