import TreeQuery.Proofs.Walk.Circle
/-!
# Document order

Child lists determine the document order of what lies below some nodes (`DocumentOrder.unique`).
Where no node stands in two child lists and none lies below itself, no node comes twice in it
(`DocumentOrder.nodup`), and what lies below a node is a stretch of it: of the whole order it is
what remains when only the nodes below that node are kept (`DocumentOrder.filter_below`).
-/
namespace TreeQuery.Walk

variable {ν : Type} {children : ν → List ν}

/-- The nodes of a list have one document order. -/
theorem DocumentOrder.unique {nodes order other : List ν}
    (ordered : DocumentOrder children nodes order)
    (orderedOther : DocumentOrder children nodes other) : order = other := by
  induction ordered generalizing other with
  | nil =>
    cases orderedOther
    rfl
  | cons _ _ inside after =>
    cases orderedOther with
    | cons insideOther afterOther => rw [inside insideOther, after afterOther]

/-- The order depends on the child lists of the nodes in it alone. -/
theorem DocumentOrder.congr {others : ν → List ν} {nodes order : List ν}
    (ordered : DocumentOrder children nodes order)
    (same : ∀ node ∈ order, others node = children node) : DocumentOrder others nodes order := by
  induction ordered with
  | nil => exact .nil
  | @cons first rest inner later _ _ inside after =>
    have insideAgain := inside fun node inner =>
      same node (List.mem_cons_of_mem _ (List.mem_append_left _ inner))
    rw [← same first List.mem_cons_self] at insideAgain
    exact .cons insideAgain (after fun node later =>
      same node (List.mem_cons_of_mem _ (List.mem_append_right _ later)))

/-- Whether the child list of one node names another. -/
abbrev Names (children : ν → List ν) (parent child : ν) : Prop := child ∈ children parent

/-- Every node stands in one child list at most, and there once, and none lies below itself. -/
structure Branching (children : ν → List ν) : Prop where
  /-- No child list names a node twice. -/
  distinct : ∀ node, (children node).Nodup
  /-- Two child lists have no node in common. -/
  onlyParent : ∀ {parent other child}, child ∈ children parent → child ∈ children other →
    parent = other
  /-- Child lists lead in no circle. -/
  noCircle : NoCircle (Names children)

namespace Branching

/-- Of two nodes at or above a node, one is at or above the other. -/
theorem above_total (branching : Branching children) {upper other node : ν}
    (above : Relation.ReflTransGen (Names children) upper node)
    (aboveOther : Relation.ReflTransGen (Names children) other node) :
    Relation.ReflTransGen (Names children) other upper ∨
      Relation.ReflTransGen (Names children) upper other := by
  have single : Relator.RightUnique (Function.swap (Names children)) :=
    fun _ _ _ first second => branching.onlyParent first second
  have compared := Relation.ReflTransGen.total_of_right_unique single
    (Relation.reflTransGen_swap.mpr above) (Relation.reflTransGen_swap.mpr aboveOther)
  exact compared.imp Relation.reflTransGen_swap.mp Relation.reflTransGen_swap.mp

/-- A node above a child is at or above its parent. -/
theorem above_parent (branching : Branching children) {upper parent child : ν}
    (listed : child ∈ children parent)
    (above : Relation.TransGen (Names children) upper child) :
    Relation.ReflTransGen (Names children) upper parent := by
  obtain ⟨last, way, leads⟩ := Relation.TransGen.tail'_iff.mp above
  exact branching.onlyParent leads listed ▸ way

/-- No child of a node is at or above another one. -/
theorem children_apart (branching : Branching children) (parent : ν) :
    (children parent).Pairwise fun first second =>
      ¬Relation.ReflTransGen (Names children) first second ∧
        ¬Relation.ReflTransGen (Names children) second first := by
  have apart : ∀ {first second}, first ∈ children parent → second ∈ children parent →
      first ≠ second → ¬Relation.ReflTransGen (Names children) first second := by
    intro first second listed listedOther different above
    rcases Relation.reflTransGen_iff_eq_or_transGen.mp above with same | way
    · exact different same.symm
    · exact branching.noCircle first (.tail' (branching.above_parent listedOther way) listed)
  exact (branching.distinct parent).imp_of_mem fun listed listedOther different =>
    ⟨apart listed listedOther different, apart listedOther listed different.symm⟩

end Branching

/-- In document order stands no node twice, if of the nodes that it starts from none is at or above
another one. -/
theorem DocumentOrder.nodup (branching : Branching children) {nodes order : List ν}
    (ordered : DocumentOrder children nodes order)
    (apart : nodes.Pairwise fun first second =>
      ¬Relation.ReflTransGen (Names children) first second ∧
        ¬Relation.ReflTransGen (Names children) second first) :
    order.Nodup := by
  induction ordered with
  | nil => exact List.nodup_nil
  | @cons first rest inner later inside after ihInside ihAfter =>
    obtain ⟨firstApart, restApart⟩ := List.pairwise_cons.mp apart
    have aboveInner : ∀ node ∈ inner,
        Relation.TransGen (Names children) first node := by
      intro node below
      obtain ⟨child, listed, way⟩ := (inside.mem_iff node).mp below
      exact .head' listed way
    have innerApart : ∀ node ∈ inner, node ∉ later := by
      intro node below belowRest
      obtain ⟨other, listed, way⟩ := (after.mem_iff node).mp belowRest
      rcases branching.above_total (aboveInner node below).to_reflTransGen way with above | above
      · exact (firstApart other listed).2 above
      · exact (firstApart other listed).1 above
    refine List.nodup_cons.mpr ⟨fun again => ?_, List.nodup_append.mpr
      ⟨ihInside (branching.children_apart first), ihAfter restApart, ?_⟩⟩
    · rcases List.mem_append.mp again with below | belowRest
      · exact branching.noCircle first (aboveInner first below)
      · obtain ⟨other, listed, way⟩ := (after.mem_iff first).mp belowRest
        exact (firstApart other listed).2 way
    · rintro node below _ belowRest rfl
      exact innerApart node below belowRest

/-- What lies below a node of a document order follows it there as one stretch. -/
theorem DocumentOrder.exists_stretch {nodes order : List ν}
    (ordered : DocumentOrder children nodes order) {scope : ν} {below : List ν}
    (inside : DocumentOrder children (children scope) below) (listed : scope ∈ order) :
    ∃ before after, order = before ++ scope :: (below ++ after) := by
  induction ordered with
  | nil => cases listed
  | @cons first rest inner later insideFirst _ ihInside ihAfter =>
    rcases List.mem_cons.mp listed with rfl | further
    · exact ⟨[], later, by rw [insideFirst.unique inside, List.nil_append]⟩
    · rcases List.mem_append.mp further with within | behind
      · obtain ⟨before, after, rfl⟩ := ihInside within
        exact ⟨first :: before, after ++ later, by simp⟩
      · obtain ⟨before, after, rfl⟩ := ihAfter behind
        exact ⟨first :: (inner ++ before), after, by simp⟩

/-- In document order a node stands before what lies below it. -/
theorem DocumentOrder.upper_before {nodes order : List ν}
    (ordered : DocumentOrder children nodes order) {upper lower : ν} {below : List ν}
    (inside : DocumentOrder children (children upper) below) (listed : upper ∈ order)
    (way : Relation.TransGen (Names children) upper lower) : [upper, lower].Sublist order := by
  obtain ⟨before, after, rfl⟩ := ordered.exists_stretch inside listed
  have lowerListed : lower ∈ below ++ after :=
    List.mem_append_left after ((inside.mem_iff lower).mpr (Relation.TransGen.head'_iff.mp way))
  exact ((List.singleton_sublist.mpr lowerListed).cons_cons upper).trans
    (List.sublist_append_right _ _)

/-- The document order of two lists of nodes is that of the one and that of the other behind it. -/
theorem DocumentOrder.exists_append {front back order : List ν}
    (ordered : DocumentOrder children (front ++ back) order) :
    ∃ former latter, order = former ++ latter ∧ DocumentOrder children front former ∧
      DocumentOrder children back latter := by
  induction front generalizing order with
  | nil => exact ⟨[], order, rfl, .nil, ordered⟩
  | cons first rest ih =>
    cases ordered with
    | cons inside after =>
      obtain ⟨former, latter, rfl, inFront, inBack⟩ := ih after
      exact ⟨_, latter, by rw [← List.append_assoc, List.cons_append], .cons inside inFront, inBack⟩

/-- In document order what lies at or below an earlier node of a list stands before what lies at or
below a later one. -/
theorem DocumentOrder.elder_before {front back order : List ν}
    (ordered : DocumentOrder children (front ++ back) order) {elder younger former latter : ν}
    (inFront : elder ∈ front) (way : Relation.ReflTransGen (Names children) elder former)
    (inBack : younger ∈ back) (wayToo : Relation.ReflTransGen (Names children) younger latter) :
    [former, latter].Sublist order := by
  obtain ⟨earlier, later, rfl, orderedFront, orderedBack⟩ := ordered.exists_append
  have formerListed := (orderedFront.mem_iff former).mpr ⟨elder, inFront, way⟩
  have latterListed := (orderedBack.mem_iff latter).mpr ⟨younger, inBack, wayToo⟩
  exact (List.singleton_sublist.mpr formerListed).append (List.singleton_sublist.mpr latterListed)

/-- Of a list without repetitions, a test that picks out a stretch keeps that stretch. -/
theorem filter_stretch {before stretch after : List ν}
    (distinct : (before ++ (stretch ++ after)).Nodup) {passes : ν → Bool}
    (picks : ∀ node, passes node ↔ node ∈ stretch) :
    (before ++ (stretch ++ after)).filter passes = stretch := by
  obtain ⟨-, inner, apartBefore⟩ := List.nodup_append.mp distinct
  obtain ⟨-, -, apartAfter⟩ := List.nodup_append.mp inner
  have none : before.filter passes = [] := by
    refine List.filter_eq_nil_iff.mpr fun node listed passing => ?_
    have within := List.mem_append_left after ((picks node).mp passing)
    exact apartBefore node listed node within rfl
  have all : stretch.filter passes = stretch :=
    List.filter_eq_self.mpr fun node listed => (picks node).mpr listed
  have noneAfter : after.filter passes = [] := by
    refine List.filter_eq_nil_iff.mpr fun node listed passing => ?_
    exact apartAfter node ((picks node).mp passing) node listed rfl
  rw [List.filter_append, List.filter_append, none, all, noneAfter, List.nil_append,
    List.append_nil]

/-- Of a document order without repetitions, the nodes below one of them are what lies below it, in
the same order. -/
theorem DocumentOrder.filter_below {nodes order : List ν}
    (ordered : DocumentOrder children nodes order) (distinct : order.Nodup) {scope : ν}
    (listed : scope ∈ order) {below : List ν}
    (inside : DocumentOrder children (children scope) below) {passes : ν → Bool}
    (tests : ∀ node, passes node ↔ Relation.TransGen (Names children) scope node) :
    order.filter passes = below := by
  obtain ⟨before, after, rfl⟩ := ordered.exists_stretch inside listed
  rw [List.append_cons] at distinct ⊢
  refine filter_stretch distinct fun node => ?_
  rw [tests, inside.mem_iff, Relation.TransGen.head'_iff]

end TreeQuery.Walk
