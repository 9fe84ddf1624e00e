import Mathlib.Data.List.Basic
import Mathlib.Logic.Relation
import TreeQuery.Tree.View
/-!
# Walks without circles

A walk has a bound, so that it ends wherever its links lead. Where no link leads back to a node
that was passed, the bound changes nothing: a way that passes each node at most once has no more
links than there are nodes with links (`within_of_noCircle`). Then the nearest node that passes a
test is the nearest one on the whole way, and the nodes below a node are all that its child lists
lead to, in document order.

A tree of linked nodes has no circles when parents and elder siblings are made before a node, and
younger siblings and children after it (`noCircles_of_linksForward`).
-/
namespace TreeQuery

namespace Walk

variable {ν : Type}

/-- No way along links leads back to where it starts. -/
def NoCircle (link : ν → ν → Prop) : Prop := ∀ node, ¬Relation.TransGen link node node

/-- No way along links from a node has more links than the bound. -/
def Within (link : ν → ν → Prop) : Nat → ν → Prop
  | 0, node => ∀ met, ¬link node met
  | bound + 1, node => ∀ met, link node met → Within link bound met

/-- The nodes that a way along links has come through, the node that it has come to among them. -/
structure Trail (link : ν → ν → Prop) (nodes trail : List ν) (node : ν) : Prop where
  /-- No node was passed twice. -/
  distinct : trail.Nodup
  /-- The way keeps to these nodes. -/
  listed : trail ⊆ nodes
  /-- From every node of the trail, links lead to where the way has come to. -/
  behind : ∀ earlier ∈ trail, Relation.ReflTransGen link earlier node

/-- Without circles, the node that a link leads on to is not on the trail yet. -/
theorem Trail.cons {link : ν → ν → Prop} (noCircle : NoCircle link) {nodes trail : List ν}
    {node met : ν} (sofar : Trail link nodes trail node) (leads : link node met)
    (inside : met ∈ nodes) : Trail link nodes (met :: trail) met where
  distinct := List.nodup_cons.mpr
    ⟨fun again => noCircle met (.tail' (sofar.behind met again) leads), sofar.distinct⟩
  listed := List.cons_subset.mpr ⟨inside, sofar.listed⟩
  behind earlier passed := by
    rcases List.mem_cons.mp passed with rfl | old
    · exact .refl
    · exact (sofar.behind earlier old).tail leads

/-- A trail can go on to as many nodes as are not on it yet. -/
theorem Trail.within {link : ν → ν → Prop} (noCircle : NoCircle link) {nodes trail : List ν}
    (among : ∀ node met, link node met → met ∈ nodes) {node : ν}
    (sofar : Trail link nodes trail node) {bound : Nat}
    (fits : nodes.length ≤ trail.length + bound) : Within link bound node := by
  induction bound generalizing node trail with
  | zero =>
    intro met leads
    have longer := sofar.cons noCircle leads (among node met leads)
    have short := longer.distinct.length_le_of_subset longer.listed
    rw [List.length_cons] at short
    omega
  | succ bound ih =>
    intro met leads
    refine ih (sofar.cons noCircle leads (among node met leads)) ?_
    rw [List.length_cons]
    omega

/-- Without circles, a way among some nodes has fewer links than there are nodes. -/
theorem within_of_among {link : ν → ν → Prop} (noCircle : NoCircle link) {nodes : List ν}
    (among : ∀ node met, link node met → node ∈ nodes ∧ met ∈ nodes) {bound : Nat}
    (fits : nodes.length ≤ bound + 1) (node : ν) : Within link bound node := by
  by_cases inside : node ∈ nodes
  · have start : Trail link nodes [node] node :=
      ⟨List.pairwise_singleton _ node, by simpa using inside, by simp [Relation.ReflTransGen.refl]⟩
    exact start.within noCircle (fun node met leads => (among node met leads).2)
      (by rw [List.length_singleton]; omega)
  · cases bound with
    | zero => exact fun met leads => inside (among node met leads).1
    | succ bound => exact fun met leads => absurd (among node met leads).1 inside

/-- Where links start at some nodes alone, a way has at most one link more than a way among those
nodes. -/
theorem Within.of_among {link : ν → ν → Prop} {nodes : List ν}
    (linked : ∀ node met, link node met → node ∈ nodes) {bound : Nat} {node : ν}
    (within : Within (fun node met => link node met ∧ met ∈ nodes) bound node) :
    Within link (bound + 1) node := by
  induction bound generalizing node with
  | zero => exact fun met leads further on => within met ⟨leads, linked met further on⟩
  | succ bound ih =>
    intro met leads
    by_cases inside : met ∈ nodes
    · exact ih (within met ⟨leads, inside⟩)
    · exact fun further on => absurd (linked met further on) inside

/-- Without circles no way has more links than there are nodes with links. -/
theorem within_of_noCircle {link : ν → ν → Prop} (noCircle : NoCircle link) {nodes : List ν}
    (linked : ∀ node met, link node met → node ∈ nodes) {bound : Nat}
    (fits : nodes.length ≤ bound) (node : ν) : Within link bound node := by
  cases bound with
  | zero =>
    intro met leads
    rw [List.length_eq_zero_iff.mp (Nat.le_zero.mp fits)] at linked
    exact List.not_mem_nil (linked node met leads)
  | succ bound =>
    have apart : NoCircle fun node met => link node met ∧ met ∈ nodes := fun node circle =>
      noCircle node (Relation.TransGen.mono (fun _ _ leads => leads.1) _ _ circle)
    exact .of_among linked (within_of_among apart
      (fun node met leads => ⟨linked node met leads.1, leads.2⟩) fits node)

/-- Links that always lead to something smaller lead in no circle. -/
theorem noCircle_of_lt {link : ν → ν → Prop} (rank : ν → Nat)
    (falls : ∀ node met, link node met → rank met < rank node) : NoCircle link := by
  intro node circle
  have smaller : ∀ {first last}, Relation.TransGen link first last → rank last < rank first := by
    intro first last way
    induction way with
    | single leads => exact falls _ _ leads
    | tail _ leads ih => exact Nat.lt_trans (falls _ _ leads) ih
  exact Nat.lt_irrefl _ (smaller circle)

/-- Links that lead in no circle lead in none when they are followed backwards. -/
theorem NoCircle.backwards {link : ν → ν → Prop} (noCircle : NoCircle link) :
    NoCircle fun node met => link met node := by
  intro node circle
  exact noCircle node (Relation.transGen_swap.mp circle)

/-- Where links lead in no circle, neither do links that stand for ways along them. -/
theorem NoCircle.of_transGen {link other : ν → ν → Prop} (noCircle : NoCircle link)
    (way : ∀ node met, other node met → Relation.TransGen link node met) : NoCircle other := by
  intro node circle
  have expand : ∀ {first last}, Relation.TransGen other first last →
      Relation.TransGen link first last := by
    intro first last shorter
    induction shorter with
    | single leads => exact way _ _ leads
    | tail _ leads ih => exact ih.trans (way _ _ leads)
  exact noCircle node (expand circle)

/-- A way along links and one link more either does without that link or goes through it. -/
theorem transGen_of_added {link more : ν → ν → Prop} {source target : ν}
    (added : ∀ node met, more node met → link node met ∨ node = source ∧ met = target)
    {first last : ν} (way : Relation.TransGen more first last) :
    Relation.TransGen link first last ∨
      Relation.ReflTransGen link first source ∧ Relation.ReflTransGen link target last := by
  induction way with
  | single leads =>
    rcases added _ _ leads with old | ⟨rfl, rfl⟩
    · exact .inl (.single old)
    · exact .inr ⟨.refl, .refl⟩
  | tail _ leads ih =>
    rcases added _ _ leads with old | ⟨rfl, rfl⟩
    · exact ih.imp (·.tail old) fun ⟨before, after⟩ => ⟨before, after.tail old⟩
    · exact .inr ⟨ih.elim (·.to_reflTransGen) And.left, .refl⟩

/-- One more link closes no circle when no way leads back from where it ends. -/
theorem noCircle_of_added {link more : ν → ν → Prop} {source target : ν}
    (noCircle : NoCircle link)
    (added : ∀ node met, more node met → link node met ∨ node = source ∧ met = target)
    (apart : ¬Relation.ReflTransGen link target source) : NoCircle more := by
  intro node circle
  rcases transGen_of_added added circle with old | ⟨before, after⟩
  · exact noCircle node old
  · exact apart (after.trans before)

/-- Following a link from a node, the first node met that passes a test. -/
inductive Nearest (link : ν → Option ν) (passes : ν → Bool) : ν → ν → Prop
  /-- The node that the link leads to passes. -/
  | here {node met : ν} (leads : link node = some met) (holds : passes met) :
    Nearest link passes node met
  /-- The node that the link leads to does not pass, and from there on another is the first. -/
  | further {node met found : ν} (leads : link node = some met) (fails : ¬passes met)
    (later : Nearest link passes met found) : Nearest link passes node found

/-- There is a nearest node only where the link leads somewhere. -/
theorem not_nearest_of_eq_none {link : ν → Option ν} {passes : ν → Bool} {node found : ν}
    (ends : link node = none) : ¬Nearest link passes node found := by
  intro nearest
  cases nearest with
  | here leads _ => simp [ends] at leads
  | further leads _ _ => simp [ends] at leads

/-- The nearest node is the one the link leads to, if that one passes, and otherwise the nearest
one from there. -/
theorem nearest_iff_of_eq_some {link : ν → Option ν} {passes : ν → Bool} {node met found : ν}
    (leads : link node = some met) : Nearest link passes node found ↔
      if passes met then met = found else Nearest link passes met found := by
  constructor
  · intro nearest
    cases nearest with
    | here same holds =>
      rw [leads] at same
      cases same
      rw [if_pos holds]
    | further same fails later =>
      rw [leads] at same
      cases same
      rw [if_neg fails]
      exact later
  · intro nearest
    by_cases holds : passes met
    · rw [if_pos holds] at nearest
      exact nearest ▸ .here leads holds
    · rw [if_neg holds] at nearest
      exact .further leads holds nearest

/-- A chain that reaches its end finds the nearest node. -/
theorem find?_chain_eq_some_iff {link : ν → Option ν} {passes : ν → Bool} {bound : Nat}
    {node found : ν} (within : Within (fun node met => link node = some met) bound node) :
    (chain link bound node).find? passes = some found ↔ Nearest link passes node found := by
  induction bound generalizing node with
  | zero =>
    have ends : link node = none := Option.eq_none_iff_forall_ne_some.mpr within
    simp [chain, not_nearest_of_eq_none ends]
  | succ bound ih =>
    cases leads : link node with
    | none => simp [chain, leads, not_nearest_of_eq_none leads]
    | some met =>
      simp only [chain, leads, nearest_iff_of_eq_some leads, ← ih (within met leads)]
      by_cases holds : passes met
      · simp [holds]
      · simp [holds]

/-- The nodes of a list and all that lies below them in the order of a document: each node, then
what lies below it, then the nodes after it. -/
inductive DocumentOrder (children : ν → List ν) : List ν → List ν → Prop
  /-- Nothing lies below no nodes. -/
  | nil : DocumentOrder children [] []
  /-- The first node comes first, what lies below it next. -/
  | cons {first : ν} {rest inner later : List ν}
    (inside : DocumentOrder children (children first) inner)
    (after : DocumentOrder children rest later) :
    DocumentOrder children (first :: rest) (first :: (inner ++ later))

/-- In document order stand the nodes that child lists lead to. -/
theorem DocumentOrder.mem_iff {children : ν → List ν} {nodes order : List ν}
    (ordered : DocumentOrder children nodes order) (node : ν) :
    node ∈ order ↔ ∃ first ∈ nodes,
      Relation.ReflTransGen (fun parent child => child ∈ children parent) first node := by
  induction ordered with
  | nil => simp
  | @cons first rest inner later _ _ below others =>
    rw [List.mem_cons, List.mem_append, below, others, List.exists_mem_cons_iff,
      Relation.ReflTransGen.cases_head_iff, eq_comm, or_assoc]

/-- Without circles, what a bounded walk lists below a node is in document order. -/
theorem documentOrder_below {children : ν → List ν} {bound : Nat} {node : ν}
    (within : Within (fun parent child => child ∈ children parent) bound node) :
    DocumentOrder children (children node) (below children bound node) := by
  induction bound generalizing node with
  | zero =>
    have none : children node = [] := List.eq_nil_iff_forall_not_mem.mpr within
    rw [none]
    exact .nil
  | succ bound ih =>
    have listed : ∀ nodes : List ν, (∀ child ∈ nodes, child ∈ children node) →
        DocumentOrder children nodes
          (nodes.flatMap fun child => child :: below children bound child) := by
      intro nodes
      induction nodes with
      | nil => exact fun _ => .nil
      | cons first rest others =>
        intro inside
        exact .cons (ih (within first (inside first List.mem_cons_self)))
          (others fun child later => inside child (List.mem_cons_of_mem first later))
    exact listed (children node) fun _ inside => inside

end Walk

namespace TreeView

variable {ν : Type}

/-- No link of a tree leads in a circle. -/
structure NoCircles (view : TreeView ν) : Prop where
  /-- A node is no ancestor of itself. -/
  parent : Walk.NoCircle fun node met => view.parent node = some met
  /-- A node does not stand before itself. -/
  previous : Walk.NoCircle fun node met => view.previous node = some met
  /-- A node does not stand after itself. -/
  next : Walk.NoCircle fun node met => view.next node = some met
  /-- A node does not lie below itself. -/
  children : Walk.NoCircle fun node met => met ∈ view.children node

/-- Whether child lists lead down from one node to another. -/
def Below (view : TreeView ν) (scope node : ν) : Prop :=
  Relation.TransGen (fun parent child => child ∈ view.children parent) scope node

/-- Fewer parents follow one another than the bound allows. -/
theorem NoCircles.within_parent {view : TreeView ν} (noCircles : view.NoCircles) (node : ν) :
    Walk.Within (fun node met => view.parent node = some met) view.size node := by
  obtain ⟨nodes, fits, linked⟩ := view.bounded
  exact Walk.within_of_noCircle noCircles.parent
    (fun node met leads => linked node (.inl (by simp [leads]))) fits node

/-- Fewer elder siblings follow one another than the bound allows. -/
theorem NoCircles.within_previous {view : TreeView ν} (noCircles : view.NoCircles) (node : ν) :
    Walk.Within (fun node met => view.previous node = some met) view.size node := by
  obtain ⟨nodes, fits, linked⟩ := view.bounded
  exact Walk.within_of_noCircle noCircles.previous
    (fun node met leads => linked node (.inr (.inl (by simp [leads])))) fits node

/-- Fewer younger siblings follow one another than the bound allows. -/
theorem NoCircles.within_next {view : TreeView ν} (noCircles : view.NoCircles) (node : ν) :
    Walk.Within (fun node met => view.next node = some met) view.size node := by
  obtain ⟨nodes, fits, linked⟩ := view.bounded
  exact Walk.within_of_noCircle noCircles.next
    (fun node met leads => linked node (.inr (.inr (.inl (by simp [leads]))))) fits node

/-- The ancestor found is the nearest one that passes. -/
theorem nearestAncestor_eq_some_iff {view : TreeView ν} (noCircles : view.NoCircles)
    (filter : Filter) (node found : ν) : view.nearestAncestor node filter = some found ↔
      Walk.Nearest view.parent (filter.accepts view) node found :=
  Walk.find?_chain_eq_some_iff (noCircles.within_parent node)

/-- The elder sibling found is the nearest one that passes. -/
theorem nearestPreceding_eq_some_iff {view : TreeView ν} (noCircles : view.NoCircles)
    (filter : Filter) (node found : ν) : view.nearestPreceding node filter = some found ↔
      Walk.Nearest view.previous (filter.accepts view) node found :=
  Walk.find?_chain_eq_some_iff (noCircles.within_previous node)

/-- Where child lists lead in no circle, ways down are no longer than the bound. -/
theorem within_children_of_noCircle (view : TreeView ν)
    (noCircle : Walk.NoCircle fun parent child => child ∈ view.children parent) (scope : ν) :
    Walk.Within (fun parent child => child ∈ view.children parent) view.size scope := by
  obtain ⟨nodes, fits, linked⟩ := view.bounded
  exact Walk.within_of_noCircle noCircle
    (fun node met leads => linked node (.inr (.inr (.inr (List.ne_nil_of_mem leads))))) fits scope

/-- Where child lists lead in no circle, the nodes below a node are listed in document order. -/
theorem documentOrder_of_noCircle (view : TreeView ν)
    (noCircle : Walk.NoCircle fun parent child => child ∈ view.children parent) (scope : ν) :
    Walk.DocumentOrder view.children (view.children scope) (view.descendants scope) := by
  rw [descendants_eq_below]
  exact Walk.documentOrder_below (view.within_children_of_noCircle noCircle scope)

/-- The nodes below a node are listed in document order. -/
theorem documentOrder_descendants {view : TreeView ν} (noCircles : view.NoCircles) (scope : ν) :
    Walk.DocumentOrder view.children (view.children scope) (view.descendants scope) :=
  documentOrder_of_noCircle view noCircles.children scope

/-- The nodes listed below a node are those that child lists lead down to. -/
theorem mem_descendants_iff {view : TreeView ν} (noCircles : view.NoCircles) (scope node : ν) :
    node ∈ view.descendants scope ↔ view.Below scope node := by
  rw [(documentOrder_descendants noCircles scope).mem_iff, Below, Relation.TransGen.head'_iff]

end TreeView

namespace Tree

/-- Whether parents and elder siblings were made before each node, and younger siblings and
children after it. -/
def linksForward (tree : Tree) : Bool :=
  (List.range tree.size).all fun id =>
    (tree.parent id).all (· < id) && (tree.previous id).all (· < id) &&
      (tree.next id).all (id < ·) && (tree.children id).all (id < ·)

/-- Child lists lead in no circle when children were made after their parents. -/
theorem noCircle_children_of_lt {tree : Tree}
    (later : ∀ node < tree.size, ∀ met ∈ tree.children node, node < met) :
    Walk.NoCircle fun node met => met ∈ tree.children node := by
  apply Walk.noCircle_of_lt (tree.size - ·)
  intro node met listed
  have inside : node < tree.size :=
    lt_size_of_linked (.inr (.inr (.inr (List.ne_nil_of_mem listed))))
  exact Nat.sub_lt_sub_left inside (later node inside met listed)

/-- A tree whose links follow the order of making has no circles. -/
theorem noCircles_of_linksForward {tree : Tree} (forward : tree.linksForward) :
    tree.view.NoCircles := by
  simp only [linksForward, List.all_eq_true, List.mem_range, Bool.and_eq_true,
    Option.all_eq_true, decide_eq_true_eq] at forward
  constructor
  · apply Walk.noCircle_of_lt id
    intro node met (leads : tree.parent node = some met)
    exact (forward node (lt_size_of_linked (.inl (by simp [leads])))).1.1.1 met leads
  · apply Walk.noCircle_of_lt id
    intro node met (leads : tree.previous node = some met)
    exact (forward node (lt_size_of_linked (.inr (.inl (by simp [leads]))))).1.1.2 met leads
  · apply Walk.noCircle_of_lt (tree.size - ·)
    intro node met (leads : tree.next node = some met)
    have inside : node < tree.size := lt_size_of_linked (.inr (.inr (.inl (by simp [leads]))))
    exact Nat.sub_lt_sub_left inside ((forward node inside).1.2 met leads)
  · exact noCircle_children_of_lt fun node inside => (forward node inside).2

end Tree

end TreeQuery
