import TreeQuery.Proofs.Select.Condensed
import TreeQuery.Proofs.Select.Meaning
import TreeQuery.Proofs.Selector.Equivalents
import TreeQuery.Proofs.Selector.Items
/-!
# Selecting in other words

The predicates of a token are asked of the nodes alone that pass its filter, and these are elements
and so content. There equivalent compound selectors accept the same, so a query accepts the same
nodes when each of its items is exchanged for an equivalent one
(`Query.accepts_eq_of_equivalent`). A selector whose tokens say the same in other words therefore
selects the same (`selectBelow_of_equivalent`), or fails as well.
-/
namespace TreeQuery

/-- Items are equivalent when they are the same relation, or equivalent compound selectors. -/
inductive Item.Equivalent : Item → Item → Prop
  /-- The relation is kept. -/
  | relation (value : Relation) : Equivalent (.relation value) (.relation value)
  /-- The compound selector is exchanged. -/
  | compound {compound other : Compound} (equivalent : compound.Equivalent other) :
    Equivalent (.compound compound) (.compound other)

/-- What passes a filter is content. -/
theorem Filter.isSignificant_of_accepts {ν : Type} {filter : Filter} {view : TreeView ν} {node : ν}
    (passes : filter.accepts view node) : view.isSignificant node := by
  simp only [accepts, Bool.and_eq_true] at passes
  exact TreeView.isSignificant_of_element (beq_iff_eq.mp passes.1.1.1)

namespace Compound.Equivalent

variable {compound other : Compound} (equivalent : compound.Equivalent other) {ν : Type}
  (view : TreeView ν)

include equivalent

/-- Equivalent compound selectors accept the same nodes. -/
theorem accepts_eq (node : ν) : compound.accepts view node = other.accepts view node := by
  rw [accepts, accepts, ← equivalent.filter]
  cases passes : compound.filter.accepts view node with
  | false => rfl
  | true => rw [equivalent.predicates view node (Filter.isSignificant_of_accepts passes)]

/-- Equivalent compound selectors ask the same of whatever a search for their filter finds. -/
theorem predicates_of_find? {nodes : List ν} {found : ν}
    (search : nodes.find? (compound.filter.accepts view) = some found) :
    compound.predicatesAccept view found = other.predicatesAccept view found :=
  equivalent.predicates view found (Filter.isSignificant_of_accepts (List.find?_some search))

/-- A step leads where it leads with an equivalent compound selector. -/
theorem follow_eq [DecidableEq ν] (relation : Relation) (node : ν) :
    view.follow ⟨relation, compound⟩ node = view.follow ⟨relation, other⟩ node := by
  simp only [TreeView.follow, Option.bind_eq_bind, ← equivalent.filter]
  cases relation with
  | descendant =>
    refine Option.bind_congr fun ancestor found => ?_
    rw [equivalent.predicates_of_find? view found]
  | child | adjacent =>
    refine Option.bind_congr fun met _ => Option.bind_congr fun nearest found => ?_
    rw [equivalent.predicates_of_find? view found]

end Compound.Equivalent

/-- Steps lead where others with equivalent items lead. -/
theorem TreeView.followAll_eq_of_equivalent {ν : Type} [DecidableEq ν] (view : TreeView ν)
    {steps others : List Step}
    (equivalent : List.Forall₂ Item.Equivalent (steps.flatMap Step.items)
      (others.flatMap Step.items)) :
    view.followAll steps = view.followAll others := by
  induction steps generalizing others with
  | nil =>
    cases others with
    | nil => rfl
    | cons other later => cases equivalent
  | cons step rest ih =>
    cases others with
    | nil => cases equivalent
    | cons other later =>
      obtain ⟨relation, compound⟩ := step
      obtain ⟨otherRelation, otherCompound⟩ := other
      rcases equivalent with _ | ⟨⟨_⟩, _ | ⟨_ | exchanged, behind⟩⟩
      funext node
      rw [followAll, followAll, exchanged.follow_eq view, ih behind]

/-- Queries with equivalent items accept the same nodes. -/
theorem Query.accepts_eq_of_equivalent {ν : Type} [DecidableEq ν] (view : TreeView ν)
    {query other : Query} (equivalent : List.Forall₂ Item.Equivalent query.items other.items) :
    query.accepts view = other.accepts view := by
  obtain ⟨subject, steps⟩ := query
  obtain ⟨otherSubject, otherSteps⟩ := other
  rcases equivalent with _ | ⟨_ | subjects, behind⟩
  funext node
  rw [accepts, accepts, subjects.accepts_eq view, view.followAll_eq_of_equivalent behind]

/-- Equivalent tokens are used as equivalent compound selectors, or neither can be used. -/
theorem WrittenCompound.Equivalent.ofResult {written other : WrittenCompound}
    (equivalent : written.Equivalent other) :
    OutcomesAgree Item.Equivalent (Item.ofResult (.ok (.token written.text)))
      (Item.ofResult (.ok (.token other.text))) := by
  rw [Item.ofResult_token, Item.ofResult_token]
  exact equivalent.outcomesAgree.map fun _ _ exchanged => .compound exchanged

/-- Any combinator is used as itself, or cannot be used. -/
theorem Item.ofResult_combinator_agrees (combinator : Combinator) :
    OutcomesAgree Item.Equivalent (Item.ofResult (.ok (.combinator combinator)))
      (Item.ofResult (.ok (.combinator combinator))) := by
  cases combinator with
  | descendant | child | adjacent => exact .ok (.relation _)
  | general => exact .error _ _

namespace WrittenSelector.Equivalent

variable {written other : WrittenSelector} (equivalent : written.Equivalent other)

include equivalent

/-- What equivalent selectors are made of is used alike, one by one. -/
theorem segments :
    List.Forall₂
      (fun first second => OutcomesAgree Item.Equivalent (Item.ofResult first)
        (Item.ofResult second))
      (written.segments.map .ok) (other.segments.map .ok) := by
  induction equivalent with
  | token equivalent => exact .cons equivalent.ofResult .nil
  | step _ separator equivalent ih =>
    exact .cons equivalent.ofResult
      (.cons (Item.ofResult_combinator_agrees separator.combinator) ih)

/-- Equivalent selectors are read as queries with equivalent items, or neither can be read. -/
theorem outcomesAgree (leading trailing : Text.Blanks) :
    OutcomesAgree
      (fun query exchanged => List.Forall₂ Item.Equivalent query.items exchanged.items)
      (Query.parse (String.ofList (leading.text ++ written.text ++ trailing.text))).outcome
      (Query.parse (String.ofList (leading.text ++ other.text ++ trailing.text))).outcome := by
  apply OutcomesAgree.of_map
  rw [Query.map_items_outcome_parse, Query.map_items_outcome_parse,
    written.segments_ofSelector, other.segments_ofSelector]
  exact OutcomesAgree.mapM equivalent.segments fun _ _ used => used

end WrittenSelector.Equivalent

/-- Selectors whose tokens say the same in other words select the same nodes, on every tree and
below every scope, and where one cannot be read the other cannot. -/
theorem selectBelow_of_equivalent {ν : Type} [DecidableEq ν] (host : Host ν) (scope : ν)
    {written other : WrittenSelector} (equivalent : written.Equivalent other)
    (leading trailing : Text.Blanks) (selected : List ν) :
    (host.selectBelow scope
        (String.ofList (leading.text ++ written.text ++ trailing.text))).outcome = .ok selected ↔
      (host.selectBelow scope
        (String.ofList (leading.text ++ other.text ++ trailing.text))).outcome = .ok selected := by
  rw [Host.outcome_selectBelow, Host.outcome_selectBelow]
  refine ((equivalent.outcomesAgree leading trailing).map fun query exchanged items => ?_).ok_iff _
  rw [Host.matched_eq_filter, Host.matched_eq_filter,
    Query.accepts_eq_of_equivalent host.toTreeView items]

/-- What is in a list, at the places that are counted with an argument. -/
def WrittenSelector.countedItems (argument : Text.Run PseudoClass.isArgumentCharacter) :
    WrittenSelector :=
  let list : WrittenToken := {
    head := .tag 'u' (by decide) (.ofText ['l'] (by decide))
    parts := []
    filled := List.cons_ne_nil _ _
    plain := List.forall_mem_nil _ }
  let item : WrittenToken := {
    head := .any
    parts := [.pseudo ⟨.ofText "Nth-Child".toList (by decide) (by decide), some argument⟩]
    filled := List.cons_ne_nil _ _
    plain := List.forall_mem_singleton.mpr trivial }
  let gap : Text.Blanks := .ofText [' '] (by decide)
  .step (.token list.clean) (.symbol .child (by decide) gap gap) item.clean

/-- The second of two items, counted in threes from the second place and from before the first. -/
theorem selectBelow_of_equivalent_twoItems :
    (WrittenSelector.countedItems (.ofText "3n+2".toList (by decide))).Equivalent
      (.countedItems (.ofText " 3N - 4 ".toList (by decide))) ∧
    (twoItems.host.selectBelow 0 "ul > *:Nth-Child(3n+2)").outcome = .ok [4] ∧
    (twoItems.host.selectBelow 0 "ul > *:Nth-Child( 3N - 4 )").outcome = .ok [4] := by
  have steps : WrittenNth.Means (.steps (.ofText ['3'] (by decide)) (some (.ofInt 2)))
      (.formula (some 3) (some 2)) := .steps (by decide) (by decide) (by simp [Nth.Fits])
  have otherSteps : WrittenNth.Means (.steps (.ofText ['3'] (by decide)) (some (.ofInt (-4))))
      (.formula (some 3) (some (-4))) := .steps (by decide) (by decide) (by simp [Nth.Fits])
  have equivalent : (WrittenSelector.countedItems (.ofText "3n+2".toList (by decide))).Equivalent
      (.countedItems (.ofText " 3N - 4 ".toList (by decide))) :=
    .step (.token ⟨rfl, .nil⟩) _ ⟨rfl, .cons (.pseudo (.rel _ _ (.shifted (by decide)
      ⟨by decide, _, rfl, _, by decide, steps⟩
      ⟨by decide, _, rfl, _, by decide, otherSteps⟩))) .nil⟩
  have second : (twoItems.host.selectBelow 0 "ul > *:Nth-Child(3n+2)").outcome = .ok [4] := by
    decide +kernel
  let none : Text.Blanks := .ofText [] (by decide)
  exact ⟨equivalent, second,
    (selectBelow_of_equivalent twoItems.host 0 equivalent none none [4]).mp second⟩

end TreeQuery
