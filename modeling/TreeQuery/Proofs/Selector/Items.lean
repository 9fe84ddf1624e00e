import Mathlib.Logic.Function.Basic
import TreeQuery.Proofs.Selector.Reading
/-!
# Reading item by item

Reading a selector uses every segment by itself and as soon as it is taken: a token as the compound
selector that it writes, a combinator as the relation to search for. A query is nothing but these
items in order (`Query.items`), so what a selector is read as depends on its segments alone, and it
fails with the first of them that cannot be used (`Query.map_items_outcome_parse`).
-/
namespace TreeQuery

section Results

variable {α β ε : Type}

/-- A sequence gives a value when its first part does and its second part goes on to that value. -/
theorem bind_eq_ok_iff {first : Except ε α} {second : α → Except ε β} {value : β} :
    first >>= second = .ok value ↔ ∃ middle, first = .ok middle ∧ second middle = .ok value := by
  cases first with
  | error error => exact ⟨nofun, nofun⟩
  | ok middle =>
    constructor
    · exact fun found => ⟨middle, rfl, found⟩
    · rintro ⟨_, same, found⟩
      cases same
      exact found

/-- A list gives the value of its first item and behind it the values of the others. -/
theorem mapM_cons_eq_ok_iff {read : α → Except ε β} {item : α} {others : List α}
    {values : List β} : (item :: others).mapM read = .ok values ↔ ∃ value later,
      read item = .ok value ∧ others.mapM read = .ok later ∧ values = value :: later := by
  simp only [List.mapM_cons, bind_eq_ok_iff]
  constructor
  · rintro ⟨value, first, later, rest, same⟩
    cases same
    exact ⟨value, later, first, rest, rfl⟩
  · rintro ⟨value, later, first, rest, rfl⟩
    exact ⟨value, first, later, rest, rfl⟩

/-- Every value that a list gives is that of one of its items. -/
theorem exists_mem_of_mapM_eq_ok {read : α → Except ε β} {items : List α} {values : List β}
    (found : items.mapM read = .ok values) {value : β} (listed : value ∈ values) :
    ∃ item ∈ items, read item = .ok value := by
  induction items generalizing values with
  | nil =>
    cases found
    cases listed
  | cons item others ih =>
    obtain ⟨first, later, read, rest, rfl⟩ := mapM_cons_eq_ok_iff.mp found
    rcases List.mem_cons.mp listed with rfl | behind
    · exact ⟨item, List.mem_cons_self, read⟩
    · obtain ⟨other, inside, same⟩ := ih rest behind
      exact ⟨other, List.mem_cons_of_mem _ inside, same⟩

/-- The second part of a list gives values behind those of the first part. -/
theorem mapM_append_eq_ok_iff {read : α → Except ε β} {items others : List α} {values : List β} :
    (items ++ others).mapM read = .ok values ↔ ∃ first later, items.mapM read = .ok first ∧
      others.mapM read = .ok later ∧ values = first ++ later := by
  simp only [List.mapM_append, bind_eq_ok_iff]
  constructor
  · rintro ⟨first, found, later, others, same⟩
    cases same
    exact ⟨first, later, found, others, rfl⟩
  · rintro ⟨first, later, found, others, rfl⟩
    exact ⟨first, found, later, others, rfl⟩

/-- A part that gives values can be exchanged for another one in a list that fails elsewhere. -/
theorem mapM_eq_error_of_exchange {read : α → Except ε β} {before middle other after : List α}
    {values otherValues : List β} {error : ε} (found : middle.mapM read = .ok values)
    (otherFound : other.mapM read = .ok otherValues)
    (fails : (before ++ (middle ++ after)).mapM read = .error error) :
    (before ++ (other ++ after)).mapM read = .error error := by
  rw [List.mapM_append, List.mapM_append, found] at fails
  rw [List.mapM_append, List.mapM_append, otherFound]
  cases first : before.mapM read with
  | error reason =>
    rw [first] at fails
    exact fails
  | ok _ =>
    rw [first] at fails
    cases last : after.mapM read with
    | error reason =>
      rw [last] at fails
      exact fails
    | ok _ =>
      rw [last] at fails
      cases fails

end Results

/-- What a segment of a selector is used as. -/
inductive Item where
  /-- The relation that a combinator asks to search for. -/
  | relation (value : Relation)
  /-- The compound selector that a token writes. -/
  | compound (value : Compound)

/-- Uses a segment that was made out. -/
def Segment.item : Segment → Except SelectorError Item
  | token text => (Compound.parse text).outcome.map .compound
  | combinator value =>
    match value.relation? with
    | none => .error (.unsupported value)
    | some relation => .ok (.relation relation)

/-- Uses what a cursor hands out. -/
def Item.ofResult (result : Except SelectorError Segment) : Except SelectorError Item :=
  result >>= Segment.item

/-- A combinator that can be searched for is used as its relation. -/
theorem Item.ofResult_combinator {combinator : Combinator} {relation : Relation}
    (supported : combinator.relation? = some relation) :
    Item.ofResult (.ok (.combinator combinator)) = .ok (.relation relation) := by
  simp [Item.ofResult, Segment.item, supported, bind, Except.bind]

/-- A token is used as the compound selector that it writes. -/
theorem Item.ofResult_token (token : List Char) :
    Item.ofResult (.ok (.token token)) = (Compound.parse token).outcome.map .compound := rfl

/-- Only a combinator is used as a relation. -/
theorem Item.exists_of_ofResult_eq_relation {result : Except SelectorError Segment}
    {relation : Relation} (used : Item.ofResult result = .ok (.relation relation)) :
    ∃ combinator, result = .ok (.combinator combinator) := by
  cases result with
  | error error => cases used
  | ok segment =>
    cases segment with
    | combinator combinator => exact ⟨combinator, rfl⟩
    | token token =>
      rw [Item.ofResult_token] at used
      cases read : (Compound.parse token).outcome <;> simp [read, Except.map] at used

/-- The items of a step. -/
def Step.items (step : Step) : List Item := [.relation step.relation, .compound step.compound]

namespace Query

/-- The items of a query, from the right. -/
def items (query : Query) : List Item := .compound query.subject :: query.steps.flatMap Step.items

/-- Where the items of some steps come first among those of others, so do the steps. -/
theorem exists_of_flatMap_items_append {block steps : List Step} {after : List Item}
    (whole : block.flatMap Step.items ++ after = steps.flatMap Step.items) :
    ∃ outer, steps = block ++ outer ∧ after = outer.flatMap Step.items := by
  induction block generalizing steps with
  | nil => exact ⟨steps, rfl, whole⟩
  | cons step later ih =>
    cases steps with
    | nil => cases whole
    | cons other rest =>
      obtain ⟨relation, compound⟩ := step
      obtain ⟨otherRelation, otherCompound⟩ := other
      simp only [List.flatMap_cons, Step.items, List.cons_append, List.nil_append,
        List.cons.injEq, Item.relation.injEq, Item.compound.injEq] at whole
      obtain ⟨rfl, rfl, behind⟩ := whole
      obtain ⟨outer, rfl, same⟩ := ih behind
      exact ⟨outer, rfl, same⟩

/-- Queries are told by their items. -/
theorem items_injective : Function.Injective items := by
  rintro ⟨subject, steps⟩ ⟨otherSubject, otherSteps⟩ same
  obtain ⟨subjects, behind⟩ := List.cons.inj same
  obtain rfl : subject = otherSubject := Item.compound.inj subjects
  obtain ⟨outer, longer, nothing⟩ :=
    exists_of_flatMap_items_append ((List.append_nil _).trans behind)
  cases outer with
  | nil =>
    obtain rfl : otherSteps = steps := longer.trans (List.append_nil steps)
    rfl
  | cons step later => cases nothing

/-- Where a relation stands among the items of some steps, the steps split there. -/
theorem exists_split_steps {steps : List Step} {relation : Relation} {before after : List Item}
    (whole : steps.flatMap Step.items = before ++ .relation relation :: after) :
    ∃ inner compound outer, steps = inner ++ ⟨relation, compound⟩ :: outer ∧
      before = inner.flatMap Step.items ∧
      after = .compound compound :: outer.flatMap Step.items := by
  induction steps generalizing before with
  | nil => simp at whole
  | cons step later ih =>
    rcases before with _ | ⟨first, _ | ⟨second, rest⟩⟩
    · cases whole
      exact ⟨[], step.compound, later, rfl, rfl, rfl⟩
    · cases whole
    · obtain ⟨rfl, inside⟩ := List.cons.inj whole
      obtain ⟨rfl, behind⟩ := List.cons.inj inside
      obtain ⟨inner, compound, outer, rfl, rfl, rfl⟩ := ih behind
      exact ⟨step :: inner, compound, outer, rfl, rfl, rfl⟩

/-- Where a relation stands among the items of a query, its steps split there. -/
theorem exists_split {query : Query} {relation : Relation} {before after : List Item}
    (whole : query.items = before ++ .relation relation :: after) :
    ∃ inner compound outer, query.steps = inner ++ ⟨relation, compound⟩ :: outer ∧
      before = items ⟨query.subject, inner⟩ ∧
      after = .compound compound :: outer.flatMap Step.items := by
  cases before with
  | nil => cases whole
  | cons first rest =>
    obtain ⟨rfl, behind⟩ := List.cons.inj whole
    obtain ⟨inner, compound, outer, steps, rfl, rfl⟩ := exists_split_steps behind
    exact ⟨inner, compound, outer, steps, rfl, rfl⟩

/-- Where the items of some steps stand among those of a query, so do the steps. -/
theorem exists_split_block {query : Query} {step : Step} {block : List Step}
    {before after : List Item}
    (whole : query.items = before ++ ((step :: block).flatMap Step.items ++ after)) :
    ∃ inner outer, query.steps = inner ++ (step :: block ++ outer) ∧
      before = items ⟨query.subject, inner⟩ ∧ after = outer.flatMap Step.items := by
  obtain ⟨inner, compound, outer, steps, rfl, behind⟩ := exists_split whole
  obtain ⟨same, behind⟩ := List.cons.inj behind
  obtain ⟨rest, rfl, rfl⟩ := exists_of_flatMap_items_append behind
  cases same
  exact ⟨inner, rest, steps, rfl, rfl⟩

/-- The steps in front of a cursor are the items of what it hands out. -/
theorem map_items_outcome_stepsFrom (cursor : Cursor) (sound : cursor.failed = false)
    (expects : cursor.expects = .combinator) :
    (stepsFrom cursor).outcome.map (List.flatMap Step.items) =
      cursor.segments.mapM Item.ofResult := by
  fun_induction Reading.ofCursor cursor with
  | case1 cursor done =>
    rw [stepsFrom_of_exhausted done, Cursor.segments_of_exhausted expects done]
    rfl
  | case2 cursor more error after related =>
    have taken : cursor.takeStep = (.error error, after) := by simp [Cursor.takeStep, related]
    rw [stepsFrom_of_error more taken,
      Cursor.segments_of_takeCombinator_error sound expects more related]
    rfl
  | case3 cursor more after related =>
    have taken : cursor.takeStep = (.error (.unsupported .general), after) := by
      simp [Cursor.takeStep, related, Combinator.relation?]
    rw [stepsFrom_of_error more taken,
      Cursor.segments_of_takeCombinator sound expects more related]
    rfl
  | case4 cursor more combinator after searched related error rest ending =>
    obtain ⟨relation, supported⟩ := Combinator.exists_relation?_of_ne_general searched
    have ready : after.failed = false := by rw [Cursor.failed_of_takeCombinator related, sound]
    have taken : cursor.takeStep = (.error error, rest) := by
      simp [Cursor.takeStep, related, supported, ending]
    rw [stepsFrom_of_error more taken,
      Cursor.segments_of_takeCombinator sound expects more related,
      Cursor.segments_of_takeToken_error ready (Cursor.expects_of_takeCombinator related) ending,
      List.mapM_cons, Item.ofResult_combinator supported]
    rfl
  | case5 cursor more combinator after searched related token rest ending shorter ih =>
    obtain ⟨relation, supported⟩ := Combinator.exists_relation?_of_ne_general searched
    have ready : after.failed = false := by rw [Cursor.failed_of_takeCombinator related, sound]
    have still : rest.failed = false := by rw [Cursor.failed_of_takeToken ending, ready]
    have taken : cursor.takeStep = (.ok (relation, token), rest) := by
      simp [Cursor.takeStep, related, supported, ending]
    rw [stepsFrom_of_step more taken,
      Cursor.segments_of_takeCombinator sound expects more related,
      Cursor.segments_of_takeToken ready (Cursor.expects_of_takeCombinator related) ending,
      List.mapM_cons, List.mapM_cons, ← ih still (Cursor.expects_of_takeToken ending),
      Item.ofResult_combinator supported]
    simp only [Item.ofResult_token, Diagnosed.outcome_bind]
    cases (Compound.parse token).outcome with
    | error error => rfl
    | ok compound => cases (stepsFrom rest).outcome <;> rfl

/-- Reading a selector uses what its cursor hands out one by one, and fails with the first that
cannot be used. -/
theorem map_items_outcome_parse (selector : String) :
    (parse selector).outcome.map items =
      (Cursor.ofSelector selector).segments.mapM Item.ofResult := by
  unfold parse
  cases taken : (Cursor.ofSelector selector).takeToken with
  | mk result rest =>
    cases result with
    | error error =>
      rw [Cursor.segments_of_takeToken_error rfl rfl taken]
      rfl
    | ok token =>
      have sound : rest.failed = false := Cursor.failed_of_takeToken taken
      rw [Cursor.segments_of_takeToken rfl rfl taken, List.mapM_cons,
        ← map_items_outcome_stepsFrom rest sound (Cursor.expects_of_takeToken taken)]
      simp only [Item.ofResult_token, Diagnosed.outcome_bind]
      cases (Compound.parse token).outcome with
      | error error => rfl
      | ok subject => cases (stepsFrom rest).outcome <;> rfl

/-- A selector is read as a query when what its cursor hands out is used as the items of it. -/
theorem outcome_parse_eq_ok_iff {selector : String} {query : Query} :
    (parse selector).outcome = .ok query ↔
      (Cursor.ofSelector selector).segments.mapM Item.ofResult = .ok query.items := by
  rw [← map_items_outcome_parse]
  cases (parse selector).outcome with
  | error error => simp [Except.map]
  | ok found => simp [Except.map, items_injective.eq_iff]

/-- A selector cannot be read when what its cursor hands out cannot be used. -/
theorem outcome_parse_eq_error_iff {selector : String} {error : SelectorError} :
    (parse selector).outcome = .error error ↔
      (Cursor.ofSelector selector).segments.mapM Item.ofResult = .error error := by
  rw [← map_items_outcome_parse]
  cases (parse selector).outcome <;> simp [Except.map]

end Query

end TreeQuery
