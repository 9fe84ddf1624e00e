import TreeQuery.Proofs.Walk.DocumentOrder
/-!
# Walks that keep a stack

A walk without a bound keeps the nodes that wait for it on a stack, the next one last. A traversal
takes the last node off, lists it, and puts its children on from the last to the first
(`takeLast?`). A search takes the last node off, notes it when it passes, puts its children on from
the first to the last, and then turns around what lies above the old stack (`Search.step?`). Both
leave the same stack behind, so where there is a document order, both come to an end: the traversal
lists that order (`lists_of_documentOrder`), and the search finds the nodes of it that pass
(`finds_of_documentOrder`).
-/
namespace TreeQuery.Walk

variable {ν : Type} {children : ν → List ν} {passes : ν → Bool}

/-- Takes the last node off a stack and puts its children on, so that the first one is the last. -/
def takeLast? (children : ν → List ν) (stack : List ν) : Option (ν × List ν) :=
  stack.getLast?.map fun node => (node, stack.dropLast ++ (children node).reverse)

/-- A traversal takes some nodes off a stack, one after the other, until nothing is left on it. -/
inductive Lists (children : ν → List ν) : List ν → List ν → Prop
  /-- Nothing is left. -/
  | nil {stack : List ν} (ends : takeLast? children stack = none) : Lists children stack []
  /-- A node is taken off, and others after it. -/
  | cons {stack after nodes : List ν} {node : ν}
    (taken : takeLast? children stack = some (node, after)) (later : Lists children after nodes) :
    Lists children stack (node :: nodes)

/-- A search under way. -/
structure Search (ν : Type) where
  /-- The nodes that wait, the next one last. -/
  stack : List ν
  /-- The nodes found so far. -/
  found : List ν

/-- Takes the last node off the stack, notes it when it passes, puts its children on, and turns
around what lies above the old stack. -/
def Search.step? (children : ν → List ν) (passes : ν → Bool) (search : Search ν) :
    Option (Search ν) :=
  search.stack.getLast?.map fun node =>
    let waiting := search.stack.dropLast
    let more := waiting ++ children node
    { stack := more.take waiting.length ++ (more.drop waiting.length).reverse
      found := if passes node then search.found ++ [node] else search.found }

/-- A search comes to an end, step by step, and has found some nodes then. -/
inductive Search.Finds (children : ν → List ν) (passes : ν → Bool) : Search ν → List ν → Prop
  /-- No node waits. -/
  | done {search : Search ν} (ends : search.step? children passes = none) :
    Finds children passes search search.found
  /-- One more step is taken, and others after it. -/
  | step {search after : Search ν} {nodes : List ν}
    (taken : search.step? children passes = some after)
    (later : Finds children passes after nodes) : Finds children passes search nodes

/-- A traversal goes on with the children of a node before the nodes that waited with it. -/
theorem takeLast?_reverse (children : ν → List ν) (first : ν) (rest : List ν) :
    takeLast? children (first :: rest).reverse =
      some (first, (children first ++ rest).reverse) := by
  simp [takeLast?]

/-- A search goes on with the children of a node before the nodes that waited with it. -/
theorem Search.step?_reverse (children : ν → List ν) (passes : ν → Bool) (first : ν)
    (rest found : List ν) : Search.step? children passes ⟨(first :: rest).reverse, found⟩ =
      some ⟨(children first ++ rest).reverse,
        if passes first then found ++ [first] else found⟩ := by
  simp only [step?, List.reverse_cons, List.getLast?_concat, List.dropLast_concat, Option.map_some,
    List.take_left, List.drop_left, List.reverse_append]

/-- What lies below two lists of nodes is in order when one order follows the other. -/
theorem DocumentOrder.append {nodes others order later : List ν}
    (ordered : DocumentOrder children nodes order)
    (orderedOthers : DocumentOrder children others later) :
    DocumentOrder children (nodes ++ others) (order ++ later) := by
  induction ordered with
  | nil => exact orderedOthers
  | @cons first rest inner behind inside _ _ ihAfter =>
    rw [List.cons_append, List.cons_append, List.append_assoc]
    exact .cons inside ihAfter

/-- A traversal lists what waits, and all that lies below it, in document order. -/
theorem lists_of_documentOrder {nodes order : List ν}
    (ordered : DocumentOrder children nodes order) : Lists children nodes.reverse order := by
  induction order generalizing nodes with
  | nil =>
    cases ordered
    exact .nil rfl
  | cons node later ih =>
    cases ordered with
    | @cons _ rest _ _ inside after =>
      exact .cons (takeLast?_reverse children node rest) (ih (inside.append after))

/-- A search finds what passes of the nodes that wait, and of all that lies below them, in document
order. -/
theorem finds_of_documentOrder {nodes order : List ν} (ordered : DocumentOrder children nodes order)
    (found : List ν) : Search.Finds children passes ⟨nodes.reverse, found⟩
      (found ++ order.filter passes) := by
  induction order generalizing nodes found with
  | nil =>
    cases ordered
    rw [List.filter_nil, List.append_nil]
    exact .done rfl
  | cons node later ih =>
    cases ordered with
    | @cons _ rest _ _ inside after =>
      refine .step (Search.step?_reverse children passes node rest found) ?_
      have onward := ih (inside.append after) (if passes node then found ++ [node] else found)
      by_cases holds : passes node
      · rw [List.filter_cons_of_pos holds]
        simpa [holds] using onward
      · rw [List.filter_cons_of_neg holds]
        simpa [holds] using onward

end TreeQuery.Walk
