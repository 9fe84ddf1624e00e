import TreeQuery.Selector.Compound
import TreeQuery.Selector.Cursor

/-!
# Queries

A query is a selector read as a whole: the compound selector of its rightmost token, which the
nodes looked for have, and the steps to the left, each a relation and the compound selector at its
other end. Reading a selector needs no tree, so whether it fails, and how, depends on the selector
alone; the error is the first one met from the right.
-/
namespace TreeQuery

namespace Cursor

/-- Takes the next step to the left: a combinator that can be searched for, and the token at its
other end. -/
def takeStep (cursor : Cursor) : Except SelectorError (Relation × List Char) × Cursor :=
  match cursor.takeCombinator with
  | (.error error, after) => (.error error, after)
  | (.ok combinator, after) =>
    match combinator.relation? with
    | none => (.error (.unsupported combinator), after)
    | some relation =>
      match after.takeToken with
      | (.error error, rest) => (.error error, rest)
      | (.ok token, rest) => (.ok (relation, token), rest)

/-- What a step is made of: the combinator that was taken, and the token behind it. -/
theorem exists_of_takeStep {cursor rest : Cursor} {relation : Relation} {token : List Char}
    (taken : cursor.takeStep = (.ok (relation, token), rest)) :
    ∃ combinator after, cursor.takeCombinator = (.ok combinator, after) ∧
      combinator.relation? = some relation ∧ after.takeToken = (.ok token, rest) := by
  unfold takeStep at taken
  split at taken
  · cases taken
  · rename_i combinator after related
    split at taken
    · cases taken
    · rename_i found supported
      split at taken
      · cases taken
      · rename_i ending
        cases taken
        exact ⟨combinator, after, related, supported, ending⟩

/-- A step taken leaves less of the selector. -/
theorem length_lt_of_takeStep {cursor rest : Cursor} {relation : Relation} {token : List Char}
    (taken : cursor.takeStep = (.ok (relation, token), rest)) :
    rest.remaining.length < cursor.remaining.length := by
  obtain ⟨combinator, after, related, _, ending⟩ := exists_of_takeStep taken
  exact Nat.lt_of_lt_of_le (length_lt_of_takeToken ending) (length_le_of_takeCombinator related)

end Cursor

/-- One step to the left. -/
structure Step where
  /-- What relates the nodes to those on the left. -/
  relation : Relation
  /-- What the nodes on the left have. -/
  compound : Compound
  deriving DecidableEq, Repr

/-- A selector that has been read. -/
structure Query where
  /-- What the nodes looked for have. -/
  subject : Compound
  /-- The steps to the left, from the right. -/
  steps : List Step
  deriving DecidableEq, Repr

namespace Query

/-- Reads the steps that a cursor has in front of it. -/
def stepsFrom (cursor : Cursor) : Diagnosed (List Step) :=
  if cursor.exhausted then pure []
  else
    match taken : cursor.takeStep with
    | (.error error, _) => Diagnosed.fail error
    | (.ok (relation, token), rest) =>
      have := Cursor.length_lt_of_takeStep taken
      do
        let compound ← Compound.parse token
        let steps ← stepsFrom rest
        pure (⟨relation, compound⟩ :: steps)
termination_by cursor.remaining.length

/-- There are no steps in front of a cursor that has taken the whole selector. -/
theorem stepsFrom_of_exhausted {cursor : Cursor} (done : cursor.exhausted) :
    stepsFrom cursor = pure [] := by
  rw [stepsFrom, if_pos done]

/-- The steps fail where no step can be taken. -/
theorem stepsFrom_of_error {cursor after : Cursor} {error : SelectorError}
    (more : ¬cursor.exhausted) (taken : cursor.takeStep = (.error error, after)) :
    stepsFrom cursor = Diagnosed.fail error := by
  rw [stepsFrom, if_neg more]
  split
  · rename_i found
    rw [taken] at found
    cases found
    rfl
  · rename_i found
    rw [taken] at found
    cases found

/-- A step taken is the first one, and the steps in front of the rest follow. -/
theorem stepsFrom_of_step {cursor rest : Cursor} {relation : Relation} {token : List Char}
    (more : ¬cursor.exhausted) (taken : cursor.takeStep = (.ok (relation, token), rest)) :
    stepsFrom cursor = (do
      let compound ← Compound.parse token
      let steps ← stepsFrom rest
      pure (⟨relation, compound⟩ :: steps)) := by
  rw [stepsFrom, if_neg more]
  split
  · rename_i found
    rw [taken] at found
    cases found
  · rename_i found
    rw [taken] at found
    cases found
    rfl

/-- Reads a selector. -/
def parse (selector : String) : Diagnosed Query :=
  match (Cursor.ofSelector selector).takeToken with
  | (.error error, _) => Diagnosed.fail error
  | (.ok token, rest) => do
    let subject ← Compound.parse token
    let steps ← stepsFrom rest
    pure ⟨subject, steps⟩

end Query

end TreeQuery
