import TreeQuery.Proofs.Text.Words
import TreeQuery.Selector.AttributeTest
/-!
# How attribute tests compare

Of two operators one may be the stricter: every value that passes it passes the other one too,
whatever value is expected. Which operators are stricter than which is a table
(`AttributeOperator.implies_iff`), complete in that a value and an expected value tell each operator
from every other one that it is not stricter than. Attribute tests of one name and one expected
value are ordered alike on every node (`AttributeTest.accepts_ordered`).
-/
namespace TreeQuery

namespace AttributeOperator

/-- Whether every value that passes an operator passes the other one. -/
def Implies (stricter other : AttributeOperator) : Prop :=
  ∀ value expected, stricter.holds value expected → other.holds value expected

/-- An operator that is no looser than another one implies what that one implies. -/
theorem Implies.trans {first second third : AttributeOperator} (former : first.Implies second)
    (latter : second.Implies third) : first.Implies third :=
  fun value expected holds => latter value expected (former value expected holds)

/-- Whatever passes a comparison is there. -/
theorem implies_present (operator : AttributeOperator) : operator.Implies present :=
  fun _ _ _ => rfl

/-- A value that is the expected one passes with or without a dash behind it. -/
theorem equals_implies_dashMatch : equals.Implies dashMatch := by
  intro value expected same
  exact Bool.or_eq_true_iff.mpr (.inl same)

/-- A value that is the expected one, or starts with it and a dash, starts with it. -/
theorem dashMatch_implies_startsWith : dashMatch.Implies startsWith := by
  intro value expected matched
  apply decide_eq_true
  rcases Bool.or_eq_true_iff.mp matched with same | dashed
  · obtain rfl := beq_iff_eq.mp same
    exact List.prefix_rfl
  · exact (List.prefix_append expected ['-']).trans (of_decide_eq_true dashed)

/-- What a value starts with stands in it. -/
theorem startsWith_implies_contains : startsWith.Implies contains := by
  intro value expected starts
  exact occurs_iff.mpr (of_decide_eq_true starts : expected <+: value).isInfix

/-- A value that is the expected one ends with it. -/
theorem equals_implies_endsWith : equals.Implies endsWith := by
  intro value expected same
  apply decide_eq_true
  obtain rfl := beq_iff_eq.mp same
  exact List.suffix_rfl

/-- What a value ends with stands in it. -/
theorem endsWith_implies_contains : endsWith.Implies contains := by
  intro value expected ends
  exact occurs_iff.mpr (of_decide_eq_true ends : expected <:+ value).isInfix

/-- A value has an expected word when the word is not empty, holds no separator, and stands in the
value with a separator or an end of the value on either side. -/
theorem holds_includes_iff {value expected : List Char} : includes.holds value expected ↔
    expected ≠ [] ∧ (∀ character ∈ expected, Text.isSeparator character = false) ∧
      Text.StandsIn expected value := by
  rw [← Text.mem_words_iff]
  exact List.contains_iff_mem

/-- A word of a value stands in it. -/
theorem includes_implies_contains : includes.Implies contains := by
  intro value expected listed
  obtain ⟨-, -, before, after, rfl, -, -⟩ := holds_includes_iff.mp listed
  exact occurs_iff.mpr ⟨before, after, rfl⟩

/-- An operator and all that are looser. -/
def implied : AttributeOperator → List AttributeOperator
  | present => [present]
  | equals => [equals, dashMatch, startsWith, endsWith, contains, present]
  | includes => [includes, contains, present]
  | startsWith => [startsWith, contains, present]
  | endsWith => [endsWith, contains, present]
  | contains => [contains, present]
  | dashMatch => [dashMatch, startsWith, contains, present]

/-- A value and an expected value of which an operator holds, and none that is not looser. -/
def typical : AttributeOperator → String × String
  | present => ("", "a")
  | equals => ("", "")
  | includes => ("b a b", "a")
  | startsWith => ("ab", "a")
  | endsWith => ("ba", "a")
  | contains => ("bab", "a")
  | dashMatch => ("a-b", "a")

/-- An operator implies itself and those that are looser. -/
theorem implies_of_mem_implied {operator other : AttributeOperator}
    (listed : other ∈ operator.implied) : operator.Implies other := by
  have itself : ∀ operator : AttributeOperator, operator.Implies operator :=
    fun _ _ _ holds => holds
  have present := implies_present
  have starts := startsWith_implies_contains
  have dashed := dashMatch_implies_startsWith
  have same := equals_implies_dashMatch
  revert other
  cases operator with
  | present => simpa [implied] using itself _
  | contains => simpa [implied] using ⟨itself _, present _⟩
  | includes => simpa [implied] using ⟨itself _, includes_implies_contains, present _⟩
  | startsWith => simpa [implied] using ⟨itself _, starts, present _⟩
  | endsWith => simpa [implied] using ⟨itself _, endsWith_implies_contains, present _⟩
  | dashMatch => simpa [implied] using ⟨itself _, dashed, dashed.trans starts, present _⟩
  | equals =>
    simpa [implied] using ⟨itself _, same, same.trans dashed, equals_implies_endsWith,
      (same.trans dashed).trans starts, present _⟩

/-- An operator implies itself and those that are looser, and no other one. -/
theorem implies_iff {operator other : AttributeOperator} :
    operator.Implies other ↔ other ∈ operator.implied := by
  constructor
  · intro implies
    have told := implies operator.typical.1.toList operator.typical.2.toList
    revert told
    cases operator <;> cases other <;> decide
  · exact implies_of_mem_implied

end AttributeOperator

namespace AttributeTest

/-- A test of the same attribute and expected value by another operator. -/
def asking (test : AttributeTest) (operator : AttributeOperator) : AttributeTest :=
  { test with operator }

/-- The text that a value is compared with. -/
def expected (test : AttributeTest) : List Char := (test.value.getD "").toList

variable {ν : Type} (test : AttributeTest) (view : TreeView ν) (node : ν)

/-- A node passes a test when it has the attribute and the operator holds of its value. -/
theorem accepts_asking_iff (operator : AttributeOperator) :
    (test.asking operator).accepts view node ↔
      ∃ value, view.attributeOf node test.name = some value ∧
        operator.holds value.toList test.expected := by
  simp only [accepts, asking, expected]
  cases view.attributeOf node test.name <;> simp

/-- A node that passes a test passes the same test by a looser operator. -/
theorem accepts_asking_of_mem_implied {operator other : AttributeOperator}
    (listed : other ∈ operator.implied) (passes : (test.asking operator).accepts view node) :
    (test.asking other).accepts view node := by
  rw [accepts_asking_iff] at passes ⊢
  obtain ⟨value, found, holds⟩ := passes
  exact ⟨value, found, AttributeOperator.implies_of_mem_implied listed _ _ holds⟩

/-- Of the tests of one attribute and one expected value, those by a stricter operator are passed
by fewer nodes. The test for a word is passed by the nodes whose value has it between separators or
ends, and a node without the attribute passes none. -/
theorem accepts_ordered :
    ((test.asking .equals).accepts view node → (test.asking .dashMatch).accepts view node) ∧
    ((test.asking .dashMatch).accepts view node → (test.asking .startsWith).accepts view node) ∧
    ((test.asking .startsWith).accepts view node → (test.asking .contains).accepts view node) ∧
    ((test.asking .equals).accepts view node → (test.asking .endsWith).accepts view node) ∧
    ((test.asking .endsWith).accepts view node → (test.asking .contains).accepts view node) ∧
    ((test.asking .includes).accepts view node → (test.asking .contains).accepts view node) ∧
    (∀ operator, (test.asking operator).accepts view node →
      (test.asking .present).accepts view node) ∧
    ((test.asking .includes).accepts view node ↔
      ∃ value before after, view.attributeOf node test.name = some value ∧
        value.toList = before ++ test.expected ++ after ∧ test.expected ≠ [] ∧
        (∀ character ∈ test.expected, Text.isSeparator character = false) ∧
        (∀ last ∈ before.getLast?, Text.isSeparator last) ∧
        ∀ first ∈ after.head?, Text.isSeparator first) ∧
    (view.attributeOf node test.name = none →
      ∀ operator, (test.asking operator).accepts view node = false) := by
  have loosens := fun {operator other : AttributeOperator} (listed : other ∈ operator.implied) =>
    accepts_asking_of_mem_implied test view node listed
  refine ⟨loosens (by decide), loosens (by decide), loosens (by decide), loosens (by decide),
    loosens (by decide), loosens (by decide), ?_, ?_, ?_⟩
  · intro operator
    exact loosens (by cases operator <;> decide)
  · rw [accepts_asking_iff]
    simp only [AttributeOperator.holds_includes_iff, Text.StandsIn]
    constructor
    · rintro ⟨value, found, filled, plain, before, after, whole, ends, starts⟩
      exact ⟨value, before, after, found, whole, filled, plain, ends, starts⟩
    · rintro ⟨value, before, after, found, whole, filled, plain, ends, starts⟩
      exact ⟨value, found, filled, plain, before, after, whole, ends, starts⟩
  · intro missing operator
    simp [accepts, asking, missing]

end AttributeTest

end TreeQuery
