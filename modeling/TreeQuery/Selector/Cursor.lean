import TreeQuery.Selector.Error
import TreeQuery.Selector.Token
import TreeQuery.Text.Basic

/-!
# Taking a selector apart from the right

A cursor takes a selector apart from its right end, where the token stands that speaks of the nodes
looked for. Tokens and combinators alternate: after a token comes the run of combinator symbols
before it, and the descendant combinator where there is none. What is left of the selector never
ends in a blank, and every token taken makes it shorter, so a cursor comes to an end.
-/
namespace TreeQuery

/-- What a cursor hands out next. -/
inductive Expectation where
  /-- A token. -/
  | token
  /-- A combinator. -/
  | combinator
  deriving DecidableEq, Repr

/-- A part of a selector. -/
inductive Segment where
  /-- A token, as written. -/
  | token (text : List Char)
  /-- What relates two tokens. -/
  | combinator (value : Combinator)
  deriving DecidableEq, Repr

/-- A selector that is being taken apart. -/
structure Cursor where
  /-- The beginning of the selector that has not been taken yet. -/
  remaining : List Char
  /-- What is handed out next. -/
  expects : Expectation
  /-- Whether a segment could not be made out. -/
  failed : Bool
  deriving DecidableEq, Repr

namespace Cursor

/-- A cursor at the right end of a selector, whose outer blanks do not count. -/
def ofSelector (selector : String) : Cursor := ⟨Text.trim selector.toList, .token, false⟩

/-- Whether the whole selector has been taken. -/
def exhausted (cursor : Cursor) : Bool := cursor.remaining.isEmpty

/-- The error of a cursor that cannot make out the next segment. -/
def fault (cursor : Cursor) : SelectorError := .malformed (String.ofList cursor.remaining)

/-- Takes the rightmost token. A cursor that cannot is left as it is. -/
def takeToken (cursor : Cursor) : Except SelectorError (List Char) × Cursor :=
  match splitToken? cursor.remaining with
  | none => (.error cursor.fault, cursor)
  | some (before, token) =>
    (.ok token, { cursor with remaining := Text.trimEnd before, expects := .combinator })

/-- Whether a character is one of the visible combinator symbols. -/
def isSymbol (character : Char) : Bool :=
  character == '>' || character == '+' || character == '~'

/-- Takes the rightmost combinator. A run of several symbols is none, and neither is a symbol with
nothing to its left. -/
def takeCombinator (cursor : Cursor) : Except SelectorError Combinator × Cursor :=
  let waiting := { cursor with expects := .token }
  match Text.takeEndWhile isSymbol cursor.remaining with
  | [] => (.ok .descendant, waiting)
  | symbols =>
    let before := Text.trimEnd (Text.dropEndWhile isSymbol cursor.remaining)
    match Combinator.ofSymbol? (String.ofList symbols) with
    | none => (.error cursor.fault, waiting)
    | some combinator =>
      if before.isEmpty then (.error cursor.fault, waiting)
      else (.ok combinator, { waiting with remaining := before })

/-- Takes the next segment, none after the leftmost token or an error. -/
def take (cursor : Cursor) : Option (Except SelectorError Segment) × Cursor :=
  if cursor.failed then (none, cursor)
  else match cursor.expects with
    | .token =>
      match cursor.takeToken with
      | (.ok token, after) => (some (.ok (.token token)), after)
      | (.error error, after) => (some (.error error), { after with failed := true })
    | .combinator =>
      if cursor.exhausted then (none, cursor)
      else match cursor.takeCombinator with
        | (.ok combinator, after) => (some (.ok (.combinator combinator)), after)
        | (.error error, after) => (some (.error error), { after with failed := true })

/-- A token taken leaves less of the selector. -/
theorem length_lt_of_takeToken {cursor after : Cursor} {token : List Char}
    (taken : cursor.takeToken = (.ok token, after)) :
    after.remaining.length < cursor.remaining.length := by
  unfold takeToken at taken
  split at taken
  · cases taken
  · rename_i before found split
    cases taken
    exact Nat.lt_of_le_of_lt (Text.length_trimEnd_le before) (length_lt_of_splitToken? split)

/-- A cursor waits for a combinator after a token. -/
theorem expects_of_takeToken {cursor after : Cursor} {token : List Char}
    (taken : cursor.takeToken = (.ok token, after)) : after.expects = .combinator := by
  unfold takeToken at taken
  split at taken
  · cases taken
  · cases taken
    rfl

/-- A combinator taken leaves no more of the selector. -/
theorem length_le_of_takeCombinator {cursor after : Cursor}
    {result : Except SelectorError Combinator} (taken : cursor.takeCombinator = (result, after)) :
    after.remaining.length ≤ cursor.remaining.length := by
  unfold takeCombinator at taken
  split at taken
  · cases taken
    exact Nat.le_refl _
  · simp only at taken
    split at taken
    · cases taken
      exact Nat.le_refl _
    · split at taken
      · cases taken
        exact Nat.le_refl _
      · cases taken
        exact Nat.le_trans (Text.length_trimEnd_le _) (Text.length_dropEndWhile_le _ _)

/-- A cursor waits for a token after a combinator. -/
theorem expects_of_takeCombinator {cursor after : Cursor}
    {result : Except SelectorError Combinator} (taken : cursor.takeCombinator = (result, after)) :
    after.expects = .token := by
  unfold takeCombinator at taken
  split at taken
  · cases taken
    rfl
  · simp only at taken
    split at taken
    · cases taken
      rfl
    · split at taken <;> (cases taken; rfl)

/-- How many segments a cursor can still hand out: two for each character left, and the
combinator it waits for. -/
def budget (cursor : Cursor) : Nat :=
  2 * cursor.remaining.length + if cursor.expects = .combinator then 1 else 0

/-- Each segment uses up a part of the budget. -/
theorem budget_lt_of_take {cursor after : Cursor} {segment : Segment}
    (taken : cursor.take = (some (.ok segment), after)) : after.budget < cursor.budget := by
  unfold take at taken
  split at taken
  · cases taken
  · split at taken
    · rename_i expects
      split at taken
      · rename_i token rest found
        cases taken
        have shorter := length_lt_of_takeToken found
        simp only [budget, expects_of_takeToken found, expects, ↓reduceIte,
          show Expectation.token ≠ Expectation.combinator by decide]
        omega
      · cases taken
    · rename_i expects
      split at taken
      · cases taken
      · split at taken
        · rename_i combinator rest found
          cases taken
          have shorter := length_le_of_takeCombinator found
          simp only [budget, expects_of_takeCombinator found, expects, ↓reduceIte,
            show Expectation.token ≠ Expectation.combinator by decide]
          omega
        · cases taken

/-- Every segment from the right, each with the cursor that handed it out. An error is the last
one. -/
def trace (cursor : Cursor) : List (Except SelectorError Segment × Cursor) :=
  match taken : cursor.take with
  | (none, _) => []
  | (some (.error error), after) => [(.error error, after)]
  | (some (.ok segment), after) =>
    have := budget_lt_of_take taken
    (.ok segment, after) :: after.trace
termination_by cursor.budget

/-- Every segment from the right, an error being the last one. -/
def segments (cursor : Cursor) : List (Except SelectorError Segment) :=
  cursor.trace.map Prod.fst

end Cursor

end TreeQuery
