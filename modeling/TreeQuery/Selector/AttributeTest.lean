import TreeQuery.Text.Basic
import TreeQuery.TreeView

/-!
# Attribute tests

An attribute test compares the value of one attribute with an expected value. It never holds of a
node without the attribute. An operator that the notation does not know asks only whether the
attribute is there.
-/
namespace TreeQuery

/-- How an attribute value is compared with an expected one. -/
inductive AttributeOperator where
  /-- Any value will do. -/
  | present
  /-- The value is the expected one. -/
  | equals
  /-- The expected value is one of the words of the value. -/
  | includes
  /-- The value starts with the expected one. -/
  | startsWith
  /-- The value ends with the expected one. -/
  | endsWith
  /-- The expected value stands somewhere in the value. -/
  | contains
  /-- The value is the expected one, or starts with it and a dash. -/
  | dashMatch
  deriving DecidableEq, Repr

namespace AttributeOperator

/-- The operator with a symbol. -/
def ofSymbol : String → AttributeOperator
  | "=" => equals
  | "~=" => includes
  | "^=" => startsWith
  | "$=" => endsWith
  | "*=" => contains
  | "|=" => dashMatch
  | _ => present

/-- Whether a text stands somewhere in another. -/
def occurs (part : List Char) : List Char → Bool
  | [] => part.isEmpty
  | character :: rest => part.isPrefixOf (character :: rest) || occurs part rest

/-- A text stands in another when it is one of its infixes. -/
theorem occurs_iff {part text : List Char} : occurs part text ↔ part <:+: text := by
  induction text with
  | nil => simp [occurs]
  | cons character rest ih =>
    rw [occurs, Bool.or_eq_true, List.isPrefixOf_iff_prefix, ih, List.infix_cons_iff]

/-- Whether the comparison holds of a value and an expected value. -/
def holds (operator : AttributeOperator) (value expected : List Char) : Bool :=
  match operator with
  | present => true
  | equals => value == expected
  | includes => (Text.words value).contains expected
  | startsWith => decide (expected <+: value)
  | endsWith => decide (expected <:+ value)
  | contains => occurs expected value
  | dashMatch => value == expected || decide (expected ++ ['-'] <+: value)

end AttributeOperator

/-- A comparison of one attribute. -/
structure AttributeTest where
  /-- How the value is compared. -/
  operator : AttributeOperator
  /-- The name of the attribute. -/
  name : String
  /-- The value to compare with, where one is written. -/
  value : Option String
  deriving DecidableEq, Repr

/-- Whether a node passes an attribute test. A test without a value compares with the empty text. -/
def AttributeTest.accepts {ν : Type} (test : AttributeTest) (view : TreeView ν) (node : ν) : Bool :=
  match view.attributeOf node test.name with
  | none => false
  | some value => test.operator.holds value.toList (test.value.getD "").toList

end TreeQuery
