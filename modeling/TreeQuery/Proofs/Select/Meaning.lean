import TreeQuery.Proofs.Select.Contexts
import TreeQuery.Proofs.Selector.Segments
import TreeQuery.Proofs.Walk.Circle
import TreeQuery.Tree.View
/-!
# What a selector selects

In a tree without circles, what a selector selects can be told node by node, without contexts and
without bounds. From a node the steps lead on (`TreeView.LeadsOn`): a descendant step asks the
nearest ancestor that passes the filter and stays, a child step moves to the parent, an adjacent
step moves to the sibling just before, and each asks that the node it looks at has what its token
says. A selector selects the nodes below the scope that have the subject and from which its steps
lead on, in document order and each once.
-/
namespace TreeQuery

namespace Walk

variable {ν : Type}

/-- The nearest node that passes a test passes it. -/
theorem Nearest.passes {link : ν → Option ν} {passes : ν → Bool} {node found : ν}
    (nearest : Nearest link passes node found) : passes found := by
  induction nearest with
  | here _ holds => exact holds
  | further _ _ _ ih => exact ih

/-- The node that a link leads to is the nearest one when it passes, and only then. -/
theorem nearest_met_iff {link : ν → Option ν} {passes : ν → Bool} {node met : ν}
    (leads : link node = some met) : Nearest link passes node met ↔ passes met :=
  ⟨Nearest.passes, Nearest.here leads⟩

end Walk

namespace TreeView

variable {ν : Type}

/-- The steps to the left lead on from a node. -/
inductive LeadsOn (view : TreeView ν) : List Step → ν → Prop
  /-- No step is left. -/
  | nil {node : ν} : LeadsOn view [] node
  /-- The nearest ancestor that passes the filter has the predicates. The next step starts at the
  same node. -/
  | descendant {compound : Compound} {later : List Step} {node ancestor : ν}
    (nearest : Walk.Nearest view.parent (compound.filter.accepts view) node ancestor)
    (holds : compound.predicatesAccept view ancestor) (on : LeadsOn view later node) :
    LeadsOn view (⟨.descendant, compound⟩ :: later) node
  /-- The parent has everything the token says. The next step starts at the parent. -/
  | child {compound : Compound} {later : List Step} {node parent : ν}
    (leads : view.parent node = some parent) (holds : compound.accepts view parent)
    (on : LeadsOn view later parent) : LeadsOn view (⟨.child, compound⟩ :: later) node
  /-- The sibling just before has everything the token says. The next step starts there. -/
  | adjacent {compound : Compound} {later : List Step} {node previous : ν}
    (leads : view.previous node = some previous) (holds : compound.accepts view previous)
    (on : LeadsOn view later previous) : LeadsOn view (⟨.adjacent, compound⟩ :: later) node

variable [DecidableEq ν]

/-- A descendant step stays at a node whose nearest fitting ancestor has the predicates. -/
theorem follow_descendant_eq_some_iff {view : TreeView ν} (noCircles : view.NoCircles)
    (compound : Compound) (node next : ν) :
    view.follow ⟨.descendant, compound⟩ node = some next ↔
      node = next ∧ ∃ ancestor,
        Walk.Nearest view.parent (compound.filter.accepts view) node ancestor ∧
          compound.predicatesAccept view ancestor := by
  simp only [follow, Option.bind_eq_bind, Option.bind_eq_some_iff,
    nearestAncestor_eq_some_iff noCircles, Option.ite_none_right_eq_some, Option.some.injEq]
  constructor
  · rintro ⟨ancestor, nearest, holds, same⟩
    exact ⟨same, ancestor, nearest, holds⟩
  · rintro ⟨same, ancestor, nearest, holds⟩
    exact ⟨ancestor, nearest, holds, same⟩

/-- Asking that the nearest node that passes is the one a link leads to, and has the predicates,
is asking that of the node the link leads to. -/
theorem neighbour_eq_some_iff {link : ν → Option ν} {passes holds : ν → Bool} {node : ν}
    {search : Option ν} (finds : ∀ found, search = some found ↔ Walk.Nearest link passes node found)
    (next : ν) :
    (do
      let met ← link node
      let nearest ← search
      if nearest = met ∧ holds nearest then some nearest else none) = some next ↔
      link node = some next ∧ passes next ∧ holds next := by
  simp only [Option.bind_eq_bind, Option.bind_eq_some_iff, finds, Option.ite_none_right_eq_some,
    Option.some.injEq]
  constructor
  · rintro ⟨met, leads, nearest, found, ⟨rfl, holding⟩, rfl⟩
    exact ⟨leads, found.passes, holding⟩
  · rintro ⟨leads, passing, holding⟩
    exact ⟨next, leads, next, (Walk.nearest_met_iff leads).mpr passing, ⟨rfl, holding⟩, rfl⟩

/-- A child step leads to the parent when it has everything the token says. -/
theorem follow_child_eq_some_iff {view : TreeView ν} (noCircles : view.NoCircles)
    (compound : Compound) (node next : ν) :
    view.follow ⟨.child, compound⟩ node = some next ↔
      view.parent node = some next ∧ compound.accepts view next := by
  rw [Compound.accepts, Bool.and_eq_true]
  exact neighbour_eq_some_iff (nearestAncestor_eq_some_iff noCircles compound.filter node) next

/-- An adjacent step leads to the sibling just before when it has everything the token says. -/
theorem follow_adjacent_eq_some_iff {view : TreeView ν} (noCircles : view.NoCircles)
    (compound : Compound) (node next : ν) :
    view.follow ⟨.adjacent, compound⟩ node = some next ↔
      view.previous node = some next ∧ compound.accepts view next := by
  rw [Compound.accepts, Bool.and_eq_true]
  exact neighbour_eq_some_iff (nearestPreceding_eq_some_iff noCircles compound.filter node) next

/-- Following every step comes somewhere exactly when the steps lead on. -/
theorem isSome_followAll_iff {view : TreeView ν} (noCircles : view.NoCircles) (steps : List Step)
    (node : ν) : (view.followAll steps node).isSome ↔ view.LeadsOn steps node := by
  induction steps generalizing node with
  | nil => exact ⟨fun _ => .nil, fun _ => rfl⟩
  | cons step later ih =>
    simp only [followAll, Option.isSome_bind, Option.any_eq_true, ih]
    obtain ⟨relation, compound⟩ := step
    cases relation with
    | descendant =>
      simp only [follow_descendant_eq_some_iff noCircles]
      constructor
      · rintro ⟨_, ⟨rfl, ancestor, nearest, holds⟩, on⟩
        exact .descendant nearest holds on
      · rintro (_ | ⟨nearest, holds, on⟩)
        exact ⟨node, ⟨rfl, _, nearest, holds⟩, on⟩
    | child =>
      simp only [follow_child_eq_some_iff noCircles]
      constructor
      · rintro ⟨parent, ⟨leads, holds⟩, on⟩
        exact .child leads holds on
      · rintro (_ | _ | ⟨leads, holds, on⟩)
        exact ⟨_, ⟨leads, holds⟩, on⟩
    | adjacent =>
      simp only [follow_adjacent_eq_some_iff noCircles]
      constructor
      · rintro ⟨previous, ⟨leads, holds⟩, on⟩
        exact .adjacent leads holds on
      · rintro (_ | _ | _ | ⟨leads, holds, on⟩)
        exact ⟨_, ⟨leads, holds⟩, on⟩

end TreeView

/-- A query selects the nodes below the scope that have the subject and from which its steps lead
on. -/
theorem Host.mem_matched_iff {ν : Type} [DecidableEq ν] (host : Host ν)
    (noCircles : host.NoCircles) (scope : ν) (query : Query) (node : ν) :
    node ∈ host.matched scope query ↔
      host.Below scope node ∧ query.subject.accepts host.toTreeView node ∧
        host.LeadsOn query.steps node := by
  rw [Host.matched_eq_filter, List.mem_filter, List.mem_eraseDups,
    TreeView.mem_descendants_iff noCircles, Query.accepts, Bool.and_eq_true,
    TreeView.isSome_followAll_iff noCircles]

/-- What a query selects below a scope stands in document order, each node once. -/
theorem Host.exists_order_matched {ν : Type} [DecidableEq ν] (host : Host ν)
    (noCircles : host.NoCircles) (scope : ν) (query : Query) :
    ∃ order, Walk.DocumentOrder host.children (host.children scope) order ∧
      (host.matched scope query).Sublist order.eraseDups ∧ (host.matched scope query).Nodup := by
  refine ⟨host.descendants scope, TreeView.documentOrder_descendants noCircles scope, ?_, ?_⟩
  · rw [Host.matched_eq_filter]
    exact List.filter_sublist
  · rw [Host.matched_eq_filter]
    exact (nodup_eraseDups _).filter _

/-- A selector that is read as a subject alone selects the nodes below the scope that have it, in
document order and each once. -/
theorem Host.exists_selected_of_subject {ν : Type} [DecidableEq ν] (host : Host ν)
    (noCircles : host.NoCircles) (scope : ν) {selector : String} {subject : Compound}
    (read : (Query.parse selector).outcome = .ok ⟨subject, []⟩) :
    ∃ selected order, (host.selectBelow scope selector).outcome = .ok selected ∧
      Walk.DocumentOrder host.children (host.children scope) order ∧
      selected.Sublist order.eraseDups ∧ selected.Nodup ∧
      ∀ node, node ∈ selected ↔
        host.toTreeView.Below scope node ∧ subject.accepts host.toTreeView node := by
  obtain ⟨order, ordered, sublist, distinct⟩ :=
    host.exists_order_matched noCircles scope ⟨subject, []⟩
  refine ⟨_, order, ?_, ordered, sublist, distinct, fun node => ?_⟩
  · rw [Host.outcome_selectBelow, read]
    rfl
  · have alone : host.toTreeView.LeadsOn [] node := .nil
    simp only [host.mem_matched_iff noCircles, alone, and_true]

/-- A selector that can be read selects the nodes below the scope that have the subject and from
which its steps lead on, in document order and each once. -/
theorem mem_selected_iff_leadsOn {ν : Type} [DecidableEq ν] (host : Host ν)
    (noCircles : host.toTreeView.NoCircles) (scope : ν) (selector : String) {token : List Char}
    {left : List (Combinator × List Char)} {subject : Compound} {steps : List Step}
    (segments : (Cursor.ofSelector selector).segments = (Segment.ofParts token left).map .ok)
    (subjectRead : (Compound.parse token).outcome = .ok subject)
    (written : List.Forall₂ Step.Written left steps) :
    ∃ selected order, (host.selectBelow scope selector).outcome = .ok selected ∧
      Walk.DocumentOrder host.children (host.children scope) order ∧
      selected.Sublist order.eraseDups ∧ selected.Nodup ∧
      ∀ node, node ∈ selected ↔
        host.toTreeView.Below scope node ∧ subject.accepts host.toTreeView node ∧
          host.toTreeView.LeadsOn steps node := by
  have read := Query.outcome_parse_of_segments segments subjectRead written
  obtain ⟨order, ordered, sublist, distinct⟩ :=
    host.exists_order_matched noCircles scope ⟨subject, steps⟩
  refine ⟨_, order, ?_, ordered, sublist, distinct, fun node => ?_⟩
  · rw [Host.outcome_selectBelow, read]
    rfl
  · exact host.mem_matched_iff noCircles scope ⟨subject, steps⟩ node

/-- A list of two items, the second with a text, in a division. -/
def twoItems : Tree :=
  ((((Tree.empty.add 0 (.element "div" .empty)).add 1 (.element "ul" .empty)).add 2
    (.element "li" .empty)).add 2 (.element "li" .empty)).add 4 (.text "second")

/-- A compound selector that asks for a tag alone. -/
def Compound.ofTag (name : String) : Compound := ⟨⟨.named name, none, []⟩, []⟩

/-- The item behind an item of a list in a division, selected through each kind of step. -/
theorem mem_selected_iff_leadsOn_twoItems :
    twoItems.view.NoCircles ∧
    (Cursor.ofSelector "div ul > li + li").segments =
      (Segment.ofParts "li".toList [(.adjacent, "li".toList), (.child, "ul".toList),
        (.descendant, "div".toList)]).map .ok ∧
    (Compound.parse "li".toList).outcome = .ok (.ofTag "li") ∧
    List.Forall₂ Step.Written
      [(.adjacent, "li".toList), (.child, "ul".toList), (.descendant, "div".toList)]
      [⟨.adjacent, .ofTag "li"⟩, ⟨.child, .ofTag "ul"⟩, ⟨.descendant, .ofTag "div"⟩] ∧
    ∃ selected order, (twoItems.host.selectBelow 0 "div ul > li + li").outcome = .ok selected ∧
      Walk.DocumentOrder twoItems.host.children (twoItems.host.children 0) order ∧
      selected.Sublist order.eraseDups ∧ selected.Nodup ∧
      ∀ node, node ∈ selected ↔ twoItems.view.Below 0 node ∧
        (Compound.ofTag "li").accepts twoItems.view node ∧
        twoItems.view.LeadsOn
          [⟨.adjacent, .ofTag "li"⟩, ⟨.child, .ofTag "ul"⟩, ⟨.descendant, .ofTag "div"⟩] node := by
  have noCircles : twoItems.view.NoCircles := Tree.noCircles_of_linksForward (by decide)
  have segments : (Cursor.ofSelector "div ul > li + li").segments =
      (Segment.ofParts "li".toList [(.adjacent, "li".toList), (.child, "ul".toList),
        (.descendant, "div".toList)]).map .ok := by decide +kernel
  have item : (Compound.parse "li".toList).outcome = .ok (.ofTag "li") := by decide +kernel
  have written : List.Forall₂ Step.Written
      [(.adjacent, "li".toList), (.child, "ul".toList), (.descendant, "div".toList)]
      [⟨.adjacent, .ofTag "li"⟩, ⟨.child, .ofTag "ul"⟩, ⟨.descendant, .ofTag "div"⟩] :=
    .cons ⟨rfl, item⟩ (.cons ⟨rfl, by decide +kernel⟩ (.cons ⟨rfl, by decide +kernel⟩ .nil))
  exact ⟨noCircles, segments, item, written,
    mem_selected_iff_leadsOn twoItems.host noCircles 0 _ segments item written⟩

end TreeQuery
