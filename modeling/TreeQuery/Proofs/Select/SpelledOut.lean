import TreeQuery.Proofs.Select.Meaning
import TreeQuery.Proofs.Selector.Items
import TreeQuery.Proofs.Selector.SpelledOut
/-!
# Selecting with classes and ids spelled out

A token that is spelled out has another filter, so that a search for the nearest node that passes
stops at another node. The rightmost token is asked of each node in turn, and a child or an adjacent
step asks for one node, found at once or not at all: there it only counts which nodes a token
accepts, and these are the same. Queries whose other tokens are kept accept the same nodes
(`Query.accepts_eq_of_alike`), and so such selectors select the same (`selectBelow_of_spelledOut`).
For a descendant step this would be wrong, so a token with white space behind it is not spelled out.
-/
namespace TreeQuery

/-- Compound selectors accept alike where one node alone is looked at, and are the same
elsewhere. -/
def Compound.AlikeWhere : Bool → Compound → Compound → Prop
  | true, compound, other => compound.AcceptsAlike other
  | false, compound, other => compound = other

/-- Any compound selector is alike to itself. -/
theorem Compound.AlikeWhere.refl (direct : Bool) (compound : Compound) :
    AlikeWhere direct compound compound := by
  cases direct with
  | true => exact fun _ _ => rfl
  | false => rfl

/-- The items of two queries have the same relations and compound selectors that are alike, where
the relation before each says what that takes. -/
inductive Item.Alike : Bool → List Item → List Item → Prop
  /-- A compound selector alone. -/
  | last {direct : Bool} {compound other : Compound}
    (alike : Compound.AlikeWhere direct compound other) :
    Alike direct [.compound compound] [.compound other]
  /-- A compound selector, and the items to its left. -/
  | step {direct : Bool} {compound other : Compound}
    (alike : Compound.AlikeWhere direct compound other) {relation : Relation}
    {items others : List Item} (left : Alike relation.isDirect items others) :
    Alike direct (.compound compound :: .relation relation :: items)
      (.compound other :: .relation relation :: others)

namespace TreeView

variable {ν : Type} [DecidableEq ν] {view : TreeView ν} (noCircles : view.NoCircles)

include noCircles

/-- A step leads where it leads with a compound selector that is alike. -/
theorem follow_eq_of_alike {relation : Relation} {compound other : Compound}
    (alike : Compound.AlikeWhere relation.isDirect compound other) :
    view.follow ⟨relation, compound⟩ = view.follow ⟨relation, other⟩ := by
  funext node
  cases relation with
  | descendant => rw [show compound = other from alike]
  | child =>
    refine Option.ext fun next => ?_
    rw [follow_child_eq_some_iff noCircles, follow_child_eq_some_iff noCircles, alike view next]
  | adjacent =>
    refine Option.ext fun next => ?_
    rw [follow_adjacent_eq_some_iff noCircles, follow_adjacent_eq_some_iff noCircles,
      alike view next]

/-- Steps lead where others with items that are alike lead. -/
theorem followAll_eq_of_alike {direct : Bool} {compound other : Compound} {steps others : List Step}
    (alike : Item.Alike direct (.compound compound :: steps.flatMap Step.items)
      (.compound other :: others.flatMap Step.items)) :
    Compound.AlikeWhere direct compound other ∧ view.followAll steps = view.followAll others := by
  induction steps generalizing direct compound other others with
  | nil =>
    cases others with
    | nil =>
      cases alike with
      | last alike => exact ⟨alike, rfl⟩
    | cons step later => cases alike
  | cons step rest ih =>
    cases others with
    | nil => cases alike
    | cons otherStep later =>
      obtain ⟨relation, wanted⟩ := step
      obtain ⟨otherRelation, otherWanted⟩ := otherStep
      cases alike with
      | step alike left =>
        obtain ⟨wantedAlike, behind⟩ := ih left
        refine ⟨alike, funext fun node => ?_⟩
        rw [followAll, followAll, follow_eq_of_alike noCircles wantedAlike, behind]

end TreeView

/-- Queries with items that are alike accept the same nodes. -/
theorem Query.accepts_eq_of_alike {ν : Type} [DecidableEq ν] {view : TreeView ν}
    (noCircles : view.NoCircles) {query other : Query}
    (alike : Item.Alike true query.items other.items) :
    query.accepts view = other.accepts view := by
  obtain ⟨subjects, behind⟩ := TreeView.followAll_eq_of_alike noCircles alike
  funext node
  rw [accepts, accepts, subjects view node, behind]

/-- A token that is kept or spelled out is used as a compound selector that is alike, or cannot be
used. -/
theorem CleanToken.SpelledOut.ofResult {direct : Bool} {token other : CleanToken}
    (spelled : SpelledOut direct token other) :
    OutcomesAgree
      (fun item exchanged => ∃ compound instead, Compound.AlikeWhere direct compound instead ∧
        item = .compound compound ∧ exchanged = .compound instead)
      (Item.ofResult (.ok (.token token.text))) (Item.ofResult (.ok (.token other.text))) := by
  have read : OutcomesAgree (Compound.AlikeWhere direct) (Compound.parse token.text).outcome
      (Compound.parse other.text).outcome := by
    cases spelled with
    | kept =>
      cases (Compound.parse token.text).outcome with
      | error error => exact .error error error
      | ok compound => exact .ok (.refl direct compound)
    | spelled spelled => exact spelled.outcomesAgree
  rw [Item.ofResult_token, Item.ofResult_token]
  exact read.map fun compound instead alike => ⟨compound, instead, alike, rfl, rfl⟩

/-- A combinator is used as a relation that looks at one node alone when it does, or cannot be
used. -/
theorem Item.ofResult_combinator_isDirect (combinator : Combinator) :
    OutcomesAgree
      (fun item exchanged => ∃ relation, combinator.isDirect = Relation.isDirect relation ∧
        item = .relation relation ∧ exchanged = .relation relation)
      (Item.ofResult (.ok (.combinator combinator)))
      (Item.ofResult (.ok (.combinator combinator))) := by
  cases combinator with
  | descendant | child | adjacent => exact .ok ⟨_, rfl, rfl, rfl⟩
  | general => exact .error _ _

namespace WrittenSelector.SpelledOut

variable {written other : WrittenSelector}

/-- What a selector that is spelled out is made of is used as items that are alike, or cannot be
used. -/
theorem items {direct : Bool} (spelled : SpelledOut direct written other) :
    OutcomesAgree (Item.Alike direct) ((written.segments.map .ok).mapM Item.ofResult)
      ((other.segments.map .ok).mapM Item.ofResult) := by
  induction spelled with
  | token last =>
    simp only [segments, List.map_cons, List.map_nil, List.mapM_cons, List.mapM_nil]
    refine last.ofResult.bind ?_
    rintro _ _ ⟨compound, instead, alike, rfl, rfl⟩
    exact .ok (.last alike)
  | @step _ _ _ separator _ _ before last ih =>
    simp only [segments, List.map_cons, List.mapM_cons, bind_assoc, pure_bind]
    refine last.ofResult.bind ?_
    rintro _ _ ⟨compound, instead, alike, rfl, rfl⟩
    refine (Item.ofResult_combinator_isDirect separator.combinator).bind ?_
    rintro _ _ ⟨relation, direct, rfl, rfl⟩
    rw [direct] at ih
    exact ih.bind fun items others left => .ok (.step alike left)

/-- A selector that is spelled out is read as a query with items that are alike, or neither can be
read. -/
theorem outcomesAgree (spelled : SpelledOut true written other) (leading trailing : Text.Blanks) :
    OutcomesAgree (fun query exchanged => Item.Alike true query.items exchanged.items)
      (Query.parse (String.ofList (leading.text ++ written.text ++ trailing.text))).outcome
      (Query.parse (String.ofList (leading.text ++ other.text ++ trailing.text))).outcome := by
  apply OutcomesAgree.of_map
  rw [Query.map_items_outcome_parse, Query.map_items_outcome_parse,
    written.segments_ofSelector, other.segments_ofSelector]
  exact spelled.items

end WrittenSelector.SpelledOut

/-- A selector selects the same nodes when classes and ids of its tokens are spelled out as
attribute clauses, in the rightmost token and wherever a child or an adjacent combinator stands
behind the token; and where one cannot be read the other cannot. -/
theorem selectBelow_of_spelledOut {ν : Type} [DecidableEq ν] (host : Host ν)
    (noCircles : host.NoCircles) (scope : ν) {written other : WrittenSelector}
    (spelled : WrittenSelector.SpelledOut true written other) (leading trailing : Text.Blanks)
    (selected : List ν) :
    (host.selectBelow scope
        (String.ofList (leading.text ++ written.text ++ trailing.text))).outcome = .ok selected ↔
      (host.selectBelow scope
        (String.ofList (leading.text ++ other.text ++ trailing.text))).outcome = .ok selected := by
  rw [Host.outcome_selectBelow, Host.outcome_selectBelow]
  refine ((spelled.outcomesAgree leading trailing).map fun query exchanged alike => ?_).ok_iff _
  rw [Host.matched_eq_filter, Host.matched_eq_filter, Query.accepts_eq_of_alike noCircles alike]

/-- A list with a class, whose item with a class and an id holds a list of its own. -/
def nestedMenu : Tree :=
  let attributes := Attributes.ofPairs [("class", "item"), ("id", "first")]
  ((((Tree.empty.add 0 (.element "ul" (.ofPairs [("class", "side menu")]))).add 1
    (.element "li" attributes)).add 2 (.element "ul" .empty)).add 3 (.element "li" .empty))

/-- With white space behind it, the token is looked for among the ancestors, and spelled out it is
found at the inner list. -/
example : (nestedMenu.host.selectBelow 0 "ul.menu li").outcome = .ok [2, 4] ∧
    (nestedMenu.host.selectBelow 0 "ul[class~=menu] li").outcome = .ok [2] := by
  constructor <;> decide +kernel

namespace NestedMenu

/-- The class of the list. -/
def menu : Text.FilledRun Compound.isNameCharacter :=
  .ofText "menu".toList (by decide) (by decide)

/-- The class of its item. -/
def item : Text.FilledRun Compound.isNameCharacter :=
  .ofText "item".toList (by decide) (by decide)

/-- The id of its item. -/
def first : Text.FilledRun Compound.isNameCharacter :=
  .ofText "first".toList (by decide) (by decide)

/-- The list by its class. -/
def list : WrittenToken where
  head := .tag 'u' rfl (.ofText ['l'] rfl)
  parts := [.className menu]
  filled := List.cons_ne_nil _ _
  plain := List.forall_mem_singleton.mpr trivial

/-- Its item by its class and its id. -/
def entry : WrittenToken where
  head := .any
  parts := [.className item, .id first]
  filled := List.cons_ne_nil _ _
  plain := List.forall_mem_cons.mpr ⟨trivial, List.forall_mem_singleton.mpr trivial⟩

/-- The list with its class spelled out. -/
theorem list_spelledOut :
    list.toWrittenCompound.SpelledOut ⟨list.head, [.clause (.ofClass menu)]⟩ :=
  ⟨by decide, rfl, .cons (.className menu) .nil⟩

/-- The item with its id spelled out. -/
theorem entry_spelledOut :
    entry.toWrittenCompound.SpelledOut ⟨entry.head, [.className item, .clause (.ofId first)]⟩ :=
  ⟨by decide, rfl, .cons (.kept _) (.cons (.id first) .nil)⟩

/-- One token directly inside another. -/
def directly (outer inner : WrittenToken) : WrittenSelector :=
  let gap : Text.Blanks := .ofText [' '] rfl
  .step (.token outer.clean) (.symbol .child nofun gap gap) inner.clean

end NestedMenu

open NestedMenu in
/-- The item of the list, with the class of the list and the id as they are and spelled out. -/
theorem selectBelow_of_spelledOut_nestedMenu :
    nestedMenu.host.NoCircles ∧
    WrittenSelector.SpelledOut true (directly list entry)
      (directly (list.spelledOut list_spelledOut) (entry.spelledOut entry_spelledOut)) ∧
    (nestedMenu.host.selectBelow 0 "ul.menu > *.item#first").outcome = .ok [2] ∧
    (nestedMenu.host.selectBelow 0 "ul[class~=menu] > *.item[id=first]").outcome = .ok [2] := by
  have noCircles : nestedMenu.host.NoCircles := Tree.noCircles_of_linksForward (by decide)
  have spelled : WrittenSelector.SpelledOut true (directly list entry)
      (directly (list.spelledOut list_spelledOut) (entry.spelledOut entry_spelledOut)) :=
    .step (.token (.spelled list_spelledOut)) (.spelled entry_spelledOut)
  have named : (nestedMenu.host.selectBelow 0 "ul.menu > *.item#first").outcome = .ok [2] := by
    decide +kernel
  let none : Text.Blanks := .ofText [] (by decide)
  exact ⟨noCircles, spelled, named,
    (selectBelow_of_spelledOut nestedMenu.host noCircles 0 spelled none none [2]).mp named⟩

end TreeQuery
