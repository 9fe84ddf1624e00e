import TreeQuery.Host
import TreeQuery.Selector.AttributeClause
import TreeQuery.Selector.PseudoClass

/-!
# Compound selectors

A token writes a compound selector: a filter on tag, id and classes, and predicates. The bracket
clauses are taken out of the token first and the pseudo-classes next, so that a dot, a hash or a
colon inside a value or an argument is nothing but a character; the tag, the ids and the classes
are read in what is left.
-/
namespace TreeQuery

/-- A condition besides the filter. -/
inductive Predicate where
  /-- A comparison of an attribute. -/
  | attributeTest (test : AttributeTest)
  /-- A pseudo-class. -/
  | pseudoClass (value : PseudoClass)
  deriving DecidableEq, Repr

/-- Whether a predicate holds of a node. -/
def Predicate.accepts {ν : Type} (predicate : Predicate) (view : TreeView ν) (node : ν) : Bool :=
  match predicate with
  | attributeTest test => test.accepts view node
  | pseudoClass value => value.accepts view node

/-- The conditions of one token. -/
structure Compound where
  /-- The conditions on tag, id and classes. -/
  filter : Filter
  /-- The other conditions, attribute tests before pseudo-classes, each in the order written. -/
  predicates : List Predicate
  deriving DecidableEq, Repr

namespace Compound

/-- Whether every predicate holds of a node. -/
def predicatesAccept {ν : Type} (compound : Compound) (view : TreeView ν) (node : ν) : Bool :=
  compound.predicates.all fun predicate => predicate.accepts view node

/-- Whether every condition holds of a node. -/
def accepts {ν : Type} (compound : Compound) (view : TreeView ν) (node : ν) : Bool :=
  compound.filter.accepts view node && compound.predicatesAccept view node

/-- Whether a character stands in a tag, an id or a class. -/
def isNameCharacter (character : Char) : Bool :=
  character.isAlphanum || character == '_' || character == '-'

/-- A letter or digit is a name character. -/
theorem isNameCharacter_of_isAlphanum {character : Char} (alphanumeric : character.isAlphanum) :
    isNameCharacter character := by
  simp [isNameCharacter, alphanumeric]

/-- A name character differs from a character that is none. -/
theorem ne_of_isNameCharacter {character other : Char} (name : isNameCharacter character)
    (plain : isNameCharacter other = false) : character ≠ other := by
  rintro rfl
  rw [name] at plain
  cases plain

/-- Names behind a mark, as pieces of a token. -/
def marked (mark : Char) : Text.Piece String where
  read
    | [] => none
    | character :: rest =>
      if character = mark then
        match rest.takeWhile isNameCharacter with
        | [] => none
        | name => some (String.ofList name, rest.dropWhile isNameCharacter)
      else none
  shorter := by
    intro text name rest found
    split at found
    · cases found
    · rename_i character tail
      split at found
      · split at found
        · cases found
        · cases found
          exact Nat.lt_succ_of_le (List.dropWhile_sublist _).length_le
      · cases found

/-- The tag at the front of a text, any tag when there is none. -/
def tagOf (text : List Char) : TagTest :=
  match text with
  | [] => .any
  | character :: _ =>
    if character.isAlphanum then .named (String.ofList (text.takeWhile isNameCharacter)) else .any

/-- Whether a character is a bracket. -/
def isBracket (character : Char) : Bool := character == '[' || character == ']'

/-- A name character is no bracket. -/
theorem isBracket_eq_false_of_isNameCharacter {character : Char}
    (name : isNameCharacter character) : isBracket character = false := by
  apply Bool.eq_false_iff.mpr
  intro bracket
  rw [isBracket, Bool.or_eq_true, beq_iff_eq, beq_iff_eq] at bracket
  rcases bracket with rfl | rfl <;> cases name

/-- The token without its attribute clauses. -/
def withoutAttributes (token : List Char) : List Char := AttributeClause.piece.without token

/-- The token without its attribute clauses and pseudo-classes. -/
def withoutPredicates (token : List Char) : List Char :=
  PseudoClass.piece.without (withoutAttributes token)

/-- Reads a token. -/
def parse (token : List Char) : Diagnosed Compound := do
  let tests := AttributeClause.piece.pieces token
  if (withoutAttributes token).any isBracket then
    Diagnosed.fail (.malformed (String.ofList token))
  else
    let pseudos ← (PseudoClass.piece.pieces (withoutAttributes token)).mapM PseudoClass.parse
    let names := withoutPredicates token
    let ids := (marked '#').pieces names
    if 1 < ids.length then
      Diagnosed.fail (.multipleIds (String.ofList token))
    else
      pure {
        filter := {
          tag := tagOf names
          id := ids.head?
          classes := ((marked '.').pieces names).eraseDups }
        predicates := tests.map .attributeTest ++ pseudos.map .pseudoClass }

end Compound

end TreeQuery
