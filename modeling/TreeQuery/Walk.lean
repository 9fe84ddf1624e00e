/-!
# Walks over linked nodes

A walk follows links from node to node. A chain follows one link as far as it goes: parents,
elder siblings, younger siblings. A traversal visits what lies below a node, every node before its
children and before its younger siblings (`below`); with several parents a node is visited once
for each way down to it. Links might lead in circles, so a walk takes a bound, and a walk without
circles over no more nodes with links than that stays within it.

A traversal runs on a list of nodes that wait to be visited. `visit_eq` says that it visits what
`below` lists, and `search_eq_filter` that a search on the way finds what filtering the visited
nodes finds.
-/
namespace TreeQuery.Walk

variable {ν : Type}

/-- The nodes met by following a link from a node, the nearest first, as many as the bound. -/
def chain (link : ν → Option ν) : Nat → ν → List ν
  | 0, _ => []
  | bound + 1, node =>
    match link node with
    | none => []
    | some met => met :: chain link bound met

/-- The nodes below a node down to a depth, in the order of a document. -/
def below (children : ν → List ν) : Nat → ν → List ν
  | 0, _ => []
  | depth + 1, node => (children node).flatMap fun child => child :: below children depth child

/-- The children of a node that are to be visited, each with the depth still open below it. -/
def opened (children : ν → List ν) : Nat → ν → List (Nat × ν)
  | 0, _ => []
  | depth + 1, node => (children node).map (depth, ·)

/-- What is below a node is each opened child followed by what is below it. -/
theorem below_eq_flatMap_opened (children : ν → List ν) (depth : Nat) (node : ν) :
    below children depth node =
      (opened children depth node).flatMap fun entry =>
        entry.2 :: below children entry.1 entry.2 := by
  cases depth with
  | zero => rfl
  | succ depth => simp [below, opened, List.flatMap_map]

/-- How many visits a list of waiting nodes leads to. -/
def visits (children : ν → List ν) (waiting : List (Nat × ν)) : Nat :=
  (waiting.flatMap fun entry => entry.2 :: below children entry.1 entry.2).length

/-- Visiting a node leaves one visit less. -/
theorem visits_opened_append_lt (children : ν → List ν) (depth : Nat) (node : ν)
    (waiting : List (Nat × ν)) :
    visits children (opened children depth node ++ waiting) <
      visits children ((depth, node) :: waiting) := by
  simp only [visits, List.flatMap_append, List.flatMap_cons, List.length_append, List.length_cons,
    below_eq_flatMap_opened children depth node]
  omega

/-- Visits the waiting nodes and what lies below them. -/
def visit (children : ν → List ν) (waiting : List (Nat × ν)) : List ν :=
  match waiting with
  | [] => []
  | (depth, node) :: later => node :: visit children (opened children depth node ++ later)
termination_by visits children waiting
decreasing_by exact visits_opened_append_lt children depth node later

/-- Visits the waiting nodes and what lies below them, and keeps the nodes that pass a test. -/
def search (children : ν → List ν) (passes : ν → Bool) (waiting : List (Nat × ν)) : List ν :=
  match waiting with
  | [] => []
  | (depth, node) :: later =>
    let rest := search children passes (opened children depth node ++ later)
    if passes node then node :: rest else rest
termination_by visits children waiting
decreasing_by exact visits_opened_append_lt children depth node later

/-- Each waiting node is visited just before what lies below it. -/
theorem visit_eq (children : ν → List ν) (waiting : List (Nat × ν)) :
    visit children waiting =
      waiting.flatMap fun entry => entry.2 :: below children entry.1 entry.2 := by
  fun_induction visit children waiting with
  | case1 => rfl
  | case2 depth node later ih =>
    rw [ih, List.flatMap_append, ← below_eq_flatMap_opened]
    rfl

/-- A traversal visits exactly what is below a node, in the order of a document. -/
theorem visit_opened (children : ν → List ν) (depth : Nat) (node : ν) :
    visit children (opened children depth node) = below children depth node := by
  rw [visit_eq, ← below_eq_flatMap_opened]

/-- A search finds the visited nodes that pass its test. -/
theorem search_eq_filter (children : ν → List ν) (passes : ν → Bool)
    (waiting : List (Nat × ν)) :
    search children passes waiting = (visit children waiting).filter passes := by
  fun_induction search children passes waiting with
  | case1 => simp [visit]
  | case2 depth node later rest holds ih => rw [visit, List.filter_cons_of_pos holds, ← ih]
  | case3 depth node later rest fails ih =>
    rw [visit, List.filter_cons_of_neg fails, ← ih]

end TreeQuery.Walk
