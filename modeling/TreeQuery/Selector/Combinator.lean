/-!
# Combinators

A combinator relates two neighbouring tokens of a selector. Each is written with one symbol; white
space is the symbol of the descendant combinator. The general sibling combinator is part of the
notation and of no query: `Combinator.relation?` gives the relations that can be searched.
-/
namespace TreeQuery

/-- What a selector writes between two tokens. -/
inductive Combinator where
  /-- White space: somewhere below. -/
  | descendant
  /-- Directly below. -/
  | child
  /-- Directly after, with the same parent. -/
  | adjacent
  /-- Anywhere after, with the same parent. -/
  | general
  deriving DecidableEq, Repr

/-- A relation between a node and the node that the token to the left speaks of. -/
inductive Relation where
  /-- That node is an ancestor. -/
  | descendant
  /-- That node is the parent. -/
  | child
  /-- That node is the sibling just before. -/
  | adjacent
  deriving DecidableEq, Repr

namespace Combinator

/-- The symbol of a combinator. -/
def symbol : Combinator → String
  | descendant => " "
  | child => ">"
  | adjacent => "+"
  | general => "~"

/-- The combinator with a symbol. -/
def ofSymbol? : String → Option Combinator
  | " " => some descendant
  | ">" => some child
  | "+" => some adjacent
  | "~" => some general
  | _ => none

/-- Each combinator is read back from its symbol. -/
@[simp] theorem ofSymbol?_symbol (combinator : Combinator) :
    ofSymbol? combinator.symbol = some combinator := by
  cases combinator <;> rfl

/-- A text is the symbol of the combinator read from it. -/
theorem ofSymbol?_eq_some_iff {text : String} {combinator : Combinator} :
    ofSymbol? text = some combinator ↔ text = combinator.symbol := by
  constructor
  · intro found
    unfold ofSymbol? at found
    split at found <;> first | contradiction | (cases found; rfl)
  · rintro rfl
    exact ofSymbol?_symbol combinator

/-- The relation to search for, which the general sibling combinator does not have. -/
def relation? : Combinator → Option Relation
  | descendant => some .descendant
  | child => some .child
  | adjacent => some .adjacent
  | general => none

end Combinator

end TreeQuery
