import TreeQuery.Proofs.Selector.WrittenCompound
import TreeQuery.Proofs.Selector.WrittenSelector
/-!
# Written tokens

A compound selector as written is a token when it has a character at all and the values in its
attribute clauses hold neither brackets nor parentheses. Such a token is clean
(`WrittenToken.clean`), so that a selector written with such tokens is taken apart into them,
whatever blanks stand at its ends (`WrittenSelector.segments_ofSelector`).
-/
namespace TreeQuery

namespace Token

/-- A text put together from clean parts. -/
def Clean (text : List Char) : Prop :=
  ∃ parts : List (List Char), (∀ part ∈ parts, CleanPart part) ∧ text = parts.flatten

namespace Clean

/-- The empty text is clean. -/
theorem nil : Clean [] := ⟨[], nofun, rfl⟩

/-- A clean part is clean. -/
theorem of_part {part : List Char} (clean : CleanPart part) : Clean part :=
  ⟨[part], by simpa using clean, by simp⟩

/-- Clean texts put together are clean. -/
theorem append {first second : List Char} (before : Clean first) (behind : Clean second) :
    Clean (first ++ second) := by
  obtain ⟨parts, clean, rfl⟩ := before
  obtain ⟨others, otherClean, rfl⟩ := behind
  exact ⟨parts ++ others, List.forall_mem_append.mpr ⟨clean, otherClean⟩,
    List.flatten_append.symm⟩

/-- A clean part and a clean text behind it are clean. -/
theorem cons {part text : List Char} (clean : CleanPart part) (behind : Clean text) :
    Clean (part ++ text) :=
  (of_part clean).append behind

/-- A text of token characters is clean. -/
theorem of_forall {text : List Char} (plain : ∀ character ∈ text, isTokenCharacter character) :
    Clean text := by
  induction text with
  | nil => exact nil
  | cons character rest ih =>
    exact cons (.character (plain character List.mem_cons_self))
      (ih fun other inside => plain other (List.mem_cons_of_mem _ inside))

/-- Clean texts put together in a row are clean. -/
theorem flatMap {α : Type} {values : List α} {text : α → List Char}
    (clean : ∀ value ∈ values, Clean (text value)) : Clean (values.flatMap text) := by
  induction values with
  | nil => exact nil
  | cons value others ih =>
    exact (clean value List.mem_cons_self).append
      (ih fun other inside => clean other (List.mem_cons_of_mem _ inside))

end Clean

/-- A name character is a token character. -/
theorem isTokenCharacter_of_isNameCharacter {character : Char}
    (name : Compound.isNameCharacter character) : isTokenCharacter character := by
  simp only [isTokenCharacter]
  rw [Compound.isNameCharacter] at name
  simp [name]

end Token

open Token

/-- The front of a compound selector is clean. -/
theorem WrittenHead.clean_text (head : WrittenHead) : Clean head.text := by
  refine .of_forall fun character inside => ?_
  rcases head.of_mem_text character inside with name | rfl
  · exact isTokenCharacter_of_isNameCharacter name
  · decide

/-- A pseudo-class is clean. -/
theorem WrittenPseudo.clean_text (pseudo : WrittenPseudo) : Clean pseudo.text := by
  have name : Clean pseudo.name.text := .of_forall fun character inside =>
    isTokenCharacter_of_isNameCharacter (pseudo.name.holds character inside)
  have argument : Clean pseudo.argumentText := by
    rw [argumentText]
    cases pseudo.argument with
    | none => exact .nil
    | some argument =>
      refine .of_part (.group fun character inside => ?_)
      have plain := argument.holds character inside
      simp only [PseudoClass.isArgumentCharacter, Compound.isBracket, Bool.not_eq_true',
        Bool.or_eq_false_iff, beq_eq_false_iff_ne] at plain
      exact ⟨plain.1.1, plain.1.2, plain.2.1⟩
  have colon : CleanPart [':'] := .character (by decide)
  exact .cons colon (name.append argument)

/-- A run of characters of a kind that no bracket and no parenthesis is of can stand in a clause. -/
theorem Text.Run.plain_of_mem {property : Char → Bool} (run : Run property)
    (noBracket : property ']' = false) (noParenthesis : property '(' = false) :
    ∀ character ∈ run.text, character ≠ ']' ∧ character ≠ '(' := fun _ inside =>
  ⟨fun same => run.not_mem ']' noBracket (same ▸ inside),
    fun same => run.not_mem '(' noParenthesis (same ▸ inside)⟩

namespace AttributeClause

/-- A plain value can stand in a clause, with quotes around it or without. -/
theorem WrittenValue.plain_text {value : WrittenValue}
    (plain : ∀ character ∈ value.value.toList, PseudoClass.isArgumentCharacter character) :
    ∀ character ∈ value.text, character ≠ ']' ∧ character ≠ '(' := by
  have inner := Text.Run.plain_of_mem ⟨value.value.toList, plain⟩ (by decide) (by decide)
  cases value with
  | double value | single value =>
    simp only [WrittenValue.value, String.toList_ofList] at inner
    simp only [WrittenValue.text, List.forall_mem_cons, List.forall_mem_append]
    exact ⟨by decide, inner, by decide, List.forall_mem_nil _⟩
  | bare value =>
    simp only [WrittenValue.value, String.toList_ofList] at inner
    exact inner

/-- A comparison with a plain value can stand in a clause. -/
theorem WrittenComparison.plain_text {comparison : WrittenComparison}
    (plain : ∀ character ∈ comparison.value.value.toList,
      PseudoClass.isArgumentCharacter character) :
    ∀ character ∈ comparison.text, character ≠ ']' ∧ character ≠ '(' := by
  have sign : ∀ character ∈ comparison.operator.sign, character ≠ ']' ∧ character ≠ '(' := by
    cases comparison.operator <;> simp [AttributeOperator.sign]
  simp only [text, List.forall_mem_cons, List.forall_mem_append]
  exact ⟨sign, by decide, comparison.before.plain_of_mem (by decide) (by decide),
    WrittenValue.plain_text plain, comparison.after.plain_of_mem (by decide) (by decide)⟩

end AttributeClause

namespace WrittenClause

/-- The value in a clause, if there is one, holds neither brackets nor parentheses. -/
def IsPlain (clause : WrittenClause) : Prop :=
  ∀ comparison ∈ clause.comparison, ∀ character ∈ comparison.value.value.toList,
    PseudoClass.isArgumentCharacter character

/-- A clause with a plain value is clean. -/
theorem clean_text {clause : WrittenClause} (plain : clause.IsPlain) : Clean clause.text := by
  let inner := clause.before.text ++ (clause.name.text ++ (clause.after.text ++
    clause.comparison.elim [] AttributeClause.WrittenComparison.text))
  have whole : clause.text = '[' :: (inner ++ [']']) := by simp [text, inner]
  have compared : ∀ character ∈
      clause.comparison.elim [] AttributeClause.WrittenComparison.text,
      character ≠ ']' ∧ character ≠ '(' := by
    cases written : clause.comparison with
    | none => exact List.forall_mem_nil _
    | some comparison =>
      exact AttributeClause.WrittenComparison.plain_text (plain comparison written)
  rw [whole]
  refine .of_part (.clause ?_)
  simp only [inner, List.forall_mem_append]
  exact ⟨clause.before.plain_of_mem (by decide) (by decide),
    clause.name.plain_of_mem (by decide) (by decide),
    clause.after.plain_of_mem (by decide) (by decide), compared⟩

end WrittenClause

namespace WrittenPart

/-- The value in a part that is a clause holds neither brackets nor parentheses. -/
def IsPlain : WrittenPart → Prop
  | clause value => value.IsPlain
  | _ => True

/-- A plain part is clean. -/
theorem clean_text {part : WrittenPart} (plain : part.IsPlain) : Clean part.text := by
  cases part with
  | className name | id name =>
    refine .of_forall fun character inside => ?_
    rcases List.mem_cons.mp inside with rfl | inside
    · decide
    · exact isTokenCharacter_of_isNameCharacter (name.holds character inside)
  | clause value => exact WrittenClause.clean_text plain
  | pseudo value => exact value.clean_text

end WrittenPart

/-- A token as written: a compound selector that has a character, with plain parts alone. -/
structure WrittenToken extends WrittenCompound where
  /-- There is a first character. -/
  filled : toWrittenCompound.text ≠ []
  /-- The values in its clauses hold neither brackets nor parentheses. -/
  plain : ∀ part ∈ parts, part.IsPlain

/-- A written token is clean. -/
def WrittenToken.clean (token : WrittenToken) : CleanToken where
  text := token.text
  clean := by
    have whole : Clean token.text :=
      token.head.clean_text.append
        (.flatMap fun part inside => WrittenPart.clean_text (token.plain part inside))
    obtain ⟨parts, clean, same⟩ := whole
    refine ⟨parts, ?_, clean, same⟩
    rintro rfl
    exact token.filled same

namespace WrittenSelector

/-- Blanks at the ends of a written selector are trimmed. -/
theorem trim_text (written : WrittenSelector) (leading trailing : Text.Blanks) :
    Text.trim (leading.text ++ written.text ++ trailing.text) = written.text := by
  obtain ⟨first, rest, beginning, firstEdge⟩ := written.exists_first
  obtain ⟨before, last, ending, lastEdge⟩ := written.exists_last
  have starts : Text.Stops Text.isBlank (written.text ++ trailing.text) := by
    rw [beginning]
    exact Text.stops_cons (plain_of_isEdge firstEdge).1
  rw [Text.trim, List.append_assoc, Text.trimStart_append leading starts, Text.trimEnd,
    Text.dropEndWhile_append trailing.holds, ending]
  exact Text.dropEndWhile_append_singleton (plain_of_isEdge lastEdge).1 before

/-- What a cursor in front of a written selector hands out is what the selector is made of. -/
theorem segments_ofSelector (written : WrittenSelector) (leading trailing : Text.Blanks) :
    (Cursor.ofSelector
        (String.ofList (leading.text ++ written.text ++ trailing.text))).segments =
      written.segments.map .ok := by
  refine written.segments_eq rfl rfl ?_
  rw [Cursor.ofSelector, String.toList_ofList, written.trim_text]

end WrittenSelector

end TreeQuery
