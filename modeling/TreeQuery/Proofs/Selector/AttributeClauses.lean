import TreeQuery.Proofs.Text.Run
import TreeQuery.Selector.AttributeClause
/-!
# Attribute clauses as written

A clause is written with a name alone or with an operator and a value, and with blanks between any
two parts. The value stands in quotes of either kind or bare. The operator may be any: what is no
symbol of one that compares asks only whether the attribute is there. Reading finds a clause exactly
where one of these forms stands (`AttributeClause.read_eq_some_iff`): what each part is made of
keeps it apart from the next one. So a clause written to compare is read back whole, whatever stands
behind it (`WrittenClause.read_append`). A form has no quote in it, or one quote that opens its value
and one that closes it (`AttributeClause.Form.innerCharacters`).
-/
namespace TreeQuery

namespace AttributeOperator

/-- What is written before the equals sign of an operator. -/
def sign : AttributeOperator → List Char
  | present => []
  | equals => []
  | includes => ['~']
  | startsWith => ['^']
  | endsWith => ['$']
  | contains => ['*']
  | dashMatch => ['|']

/-- To be equal is to compare. -/
theorem equals_ne_present : equals ≠ present := by decide

/-- To be included is to compare. -/
theorem includes_ne_present : includes ≠ present := by decide

/-- An operator that compares is read back from its sign. -/
theorem ofSymbol_sign {operator : AttributeOperator} (compares : operator ≠ present) :
    ofSymbol (String.ofList (operator.sign ++ ['='])) = operator := by
  cases operator with
  | present => exact absurd rfl compares
  | equals => rfl
  | includes => rfl
  | startsWith => rfl
  | endsWith => rfl
  | contains => rfl
  | dashMatch => rfl

/-- A sign is made of operator characters. -/
theorem isOperatorCharacter_of_mem_sign {operator : AttributeOperator} {character : Char}
    (inside : character ∈ operator.sign) : AttributeClause.isOperatorCharacter character := by
  cases operator with
  | present => cases inside
  | equals => cases inside
  | includes | startsWith | endsWith | contains | dashMatch =>
    cases List.mem_singleton.mp inside
    decide

end AttributeOperator

namespace AttributeClause

/-- A value as written in a clause. -/
inductive WrittenValue where
  /-- In double quotes, without one inside. -/
  | double (value : Text.Run (· != '"'))
  /-- In single quotes, without one inside. -/
  | single (value : Text.Run (· != '\x27'))
  /-- Without quotes. -/
  | bare (value : Text.Run isBareCharacter)

namespace WrittenValue

/-- The text of a written value. -/
def text : WrittenValue → List Char
  | double value => '"' :: (value.text ++ ['"'])
  | single value => '\x27' :: (value.text ++ ['\x27'])
  | bare value => value.text

/-- The value that is written. -/
def value : WrittenValue → String
  | double value => String.ofList value.text
  | single value => String.ofList value.text
  | bare value => String.ofList value.text

end WrittenValue

/-- An operator and a value in a clause, whatever the operator is. -/
structure Comparison where
  /-- What stands before the equals sign of the operator. -/
  sign : Text.Run isOperatorCharacter
  /-- The blanks before the value. -/
  before : Text.Blanks
  /-- The value. -/
  value : WrittenValue
  /-- The blanks behind the value. -/
  after : Text.Blanks

/-- The text of a comparison. -/
def Comparison.text (comparison : Comparison) : List Char :=
  comparison.sign.text ++
    '=' :: (comparison.before.text ++ (comparison.value.text ++ comparison.after.text))

/-- The operator of a comparison. -/
def Comparison.operator (comparison : Comparison) : AttributeOperator :=
  .ofSymbol (String.ofList (comparison.sign.text ++ ['=']))

/-- A form in which an attribute clause can stand in a text. -/
structure Form where
  /-- The blanks before the name. -/
  before : Text.Blanks
  /-- The name of the attribute. -/
  name : Text.FilledRun isNameCharacter
  /-- The blanks behind the name. -/
  after : Text.Blanks
  /-- The operator and the value, where they are written. -/
  comparison : Option Comparison

namespace Form

/-- The text of a clause of a form. -/
def text (form : Form) : List Char :=
  '[' :: (form.before.text ++ (form.name.text ++ (form.after.text ++
    (form.comparison.elim [] Comparison.text ++ [']']))))

/-- The attribute test that a clause of a form writes. -/
def test (form : Form) : AttributeTest where
  operator := form.comparison.elim .present Comparison.operator
  name := String.ofList form.name.text
  value := form.comparison.map fun comparison => comparison.value.value

end Form

/-- An operator and a value as written in a clause. -/
structure WrittenComparison where
  /-- The operator. -/
  operator : AttributeOperator
  /-- It is one of those that compare with a value. -/
  compares : operator ≠ .present
  /-- The blanks before the value. -/
  before : Text.Blanks
  /-- The value. -/
  value : WrittenValue
  /-- The blanks behind the value. -/
  after : Text.Blanks

/-- The text of a written comparison. -/
def WrittenComparison.text (comparison : WrittenComparison) : List Char :=
  comparison.operator.sign ++
    '=' :: (comparison.before.text ++ (comparison.value.text ++ comparison.after.text))

end AttributeClause

open AttributeClause

/-- An attribute clause as written. -/
structure WrittenClause where
  /-- The blanks before the name. -/
  before : Text.Blanks
  /-- The name of the attribute. -/
  name : Text.FilledRun isNameCharacter
  /-- The blanks behind the name. -/
  after : Text.Blanks
  /-- The operator and the value, where they are written. -/
  comparison : Option WrittenComparison

namespace WrittenClause

/-- The text of a written clause. -/
def text (clause : WrittenClause) : List Char :=
  '[' :: (clause.before.text ++ (clause.name.text ++ (clause.after.text ++
    ((clause.comparison.elim [] WrittenComparison.text) ++ [']']))))

/-- The attribute test that a clause writes. -/
def test (clause : WrittenClause) : AttributeTest where
  operator := clause.comparison.elim .present WrittenComparison.operator
  name := String.ofList clause.name.text
  value := clause.comparison.map fun comparison => comparison.value.value

/-- The clause that compares an attribute with a value, without blanks. -/
def comparing (key : Text.FilledRun isNameCharacter) (operator : AttributeOperator)
    (compares : operator ≠ .present) (value : WrittenValue) : WrittenClause where
  before := .ofText [] rfl
  name := key
  after := .ofText [] rfl
  comparison := some {
    operator := operator
    compares := compares
    before := .ofText [] rfl
    value := value
    after := .ofText [] rfl }

end WrittenClause

namespace AttributeClause

/-- A name character is no blank. -/
theorem isBlank_eq_false_of_isNameCharacter {character : Char} (name : isNameCharacter character) :
    Text.isBlank character = false := by
  simp only [isNameCharacter, Bool.or_eq_true, beq_iff_eq, or_assoc] at name
  rcases name with word | rfl | rfl | rfl
  · exact Text.isBlank_eq_false_of_isWordCharacter word
  all_goals decide

/-- A blank is no name character. -/
theorem isNameCharacter_eq_false_of_isBlank {character : Char} (blank : Text.isBlank character) :
    isNameCharacter character = false := by
  apply Bool.eq_false_iff.mpr
  intro name
  rw [isBlank_eq_false_of_isNameCharacter name] at blank
  cases blank

/-- An operator character is neither a blank nor a name character. -/
theorem isOperatorCharacter_apart {character : Char} (operates : isOperatorCharacter character) :
    Text.isBlank character = false ∧ isNameCharacter character = false := by
  simp only [isOperatorCharacter, Bool.not_eq_true', Bool.or_eq_false_iff, beq_eq_false_iff_ne]
    at operates
  obtain ⟨⟨⟨⟨⟨name, blank⟩, _⟩, _⟩, _⟩, _⟩ := operates
  exact ⟨blank, name⟩

/-- A bare character is no blank. -/
theorem isBlank_eq_false_of_isBareCharacter {character : Char} (bare : isBareCharacter character) :
    Text.isBlank character = false := by
  simp only [isBareCharacter, Bool.not_eq_true', Bool.or_eq_false_iff] at bare
  exact bare.1.1.1

/-- A blank is no bare character. -/
theorem isBareCharacter_eq_false_of_isBlank {character : Char} (blank : Text.isBlank character) :
    isBareCharacter character = false := by
  simp [isBareCharacter, blank]

/-- A character of a name is bare. -/
theorem isBareCharacter_of_isNameCharacter {character : Char} (name : isNameCharacter character) :
    isBareCharacter character := by
  have apart : ∀ other, isNameCharacter other = false → (character == other) = false := by
    intro other plain
    rw [beq_eq_false_iff_ne]
    rintro rfl
    rw [plain] at name
    cases name
  simp [isBareCharacter, isBlank_eq_false_of_isNameCharacter name, apart ']' (by decide),
    apart '"' (by decide), apart '\x27' (by decide)]

/-- A character of an operator is bare. -/
theorem isBareCharacter_of_isOperatorCharacter {character : Char}
    (operates : isOperatorCharacter character) : isBareCharacter character := by
  simp only [isOperatorCharacter, Bool.not_eq_true', Bool.or_eq_false_iff] at operates
  obtain ⟨⟨⟨⟨⟨_, blank⟩, closing⟩, double⟩, single⟩, _⟩ := operates
  simp [isBareCharacter, blank, closing, double, single]

/-- An operator is read up to its equals sign. -/
theorem readOperator_append (sign : Text.Run isOperatorCharacter) (rest : List Char) :
    readOperator (sign.text ++ '=' :: rest) =
      some (.ofSymbol (String.ofList (sign.text ++ ['='])), rest) := by
  have equals : Text.Stops isOperatorCharacter ('=' :: rest) := Text.stops_cons (by decide)
  have dropped := sign.dropWhile_append equals
  have taken := sign.takeWhile_append equals
  simp only [readOperator, dropped, taken]

/-- A quoted value is read up to the quote that closes it. -/
theorem readQuoted_append {quote : Char} (value : Text.Run (· != quote)) (rest : List Char) :
    readQuoted quote (value.text ++ quote :: rest) = some (String.ofList value.text, rest) := by
  have closes : Text.Stops (· != quote) (quote :: rest) := Text.stops_cons (by simp)
  rw [readQuoted, value.dropWhile_append closes, value.takeWhile_append closes]

/-- Whether a character opens a quoted value. -/
def isQuote (character : Char) : Bool := character == '"' || character == '\x27'

/-- A bare character is no quote. -/
theorem isQuote_eq_false_of_isBareCharacter {character : Char} (bare : isBareCharacter character) :
    isQuote character = false := by
  simp only [isBareCharacter, Bool.not_eq_true', Bool.or_eq_false_iff] at bare
  rw [isQuote, bare.1.2, bare.2, Bool.or_self]

/-- A blank is no quote. -/
theorem isQuote_eq_false_of_isBlank {character : Char} (blank : Text.isBlank character) :
    isQuote character = false := by
  apply Bool.eq_false_iff.mpr
  intro quote
  rw [isQuote, Bool.or_eq_true, beq_iff_eq, beq_iff_eq] at quote
  rcases quote with rfl | rfl <;> exact absurd blank (by decide)

/-- A text that starts with no quote is read as a bare value. -/
theorem readValue_of_stops {text : List Char} (plain : Text.Stops isQuote text) :
    readValue text =
      some (String.ofList (text.takeWhile isBareCharacter), text.dropWhile isBareCharacter) := by
  unfold readValue
  split
  · exact absurd (plain '"' rfl) (by decide)
  · exact absurd (plain '\x27' rfl) (by decide)
  · rfl

/-- A bare value is read up to a character that is not bare. -/
theorem readValue_append (value : Text.Run isBareCharacter) {behind : List Char}
    (stops : Text.Stops isBareCharacter behind) (plain : Text.Stops isQuote behind) :
    readValue (value.text ++ behind) = some (String.ofList value.text, behind) := by
  have unquoted : Text.Stops isQuote (value.text ++ behind) :=
    (value.stops fun _ bare => isQuote_eq_false_of_isBareCharacter bare).append plain
  rw [readValue_of_stops unquoted, value.takeWhile_append stops, value.dropWhile_append stops]

/-- Between blanks and in front of the closing bracket, a written value is read back. -/
theorem exists_readValue (before after : Text.Blanks) (value : WrittenValue) (rest : List Char) :
    ∃ behind, Text.trimStart behind = ']' :: rest ∧
      readValue (Text.trimStart (before.text ++ (value.text ++ (after.text ++ ']' :: rest)))) =
        some (value.value, behind) := by
  have closing : Text.Stops Text.isBlank (']' :: rest) := Text.stops_cons (by decide)
  have trimmed := Text.trimStart_append after closing
  cases value with
  | double value =>
    refine ⟨after.text ++ ']' :: rest, trimmed, ?_⟩
    simp only [WrittenValue.text, List.cons_append, List.append_assoc, List.nil_append]
    rw [Text.trimStart_append before (Text.stops_cons (by decide))]
    exact readQuoted_append value _
  | single value =>
    refine ⟨after.text ++ ']' :: rest, trimmed, ?_⟩
    simp only [WrittenValue.text, List.cons_append, List.append_assoc, List.nil_append]
    rw [Text.trimStart_append before (Text.stops_cons (by decide))]
    exact readQuoted_append value _
  | bare value =>
    simp only [WrittenValue.text, WrittenValue.value]
    by_cases empty : value.text = []
    · refine ⟨']' :: rest, closing.dropWhile_eq, ?_⟩
      have nothing : Text.trimStart (before.text ++ (value.text ++ (after.text ++ ']' :: rest))) =
          ']' :: rest := by
        rw [empty, List.nil_append, Text.trimStart, List.dropWhile_append_of_pos before.holds]
        exact trimmed
      rw [nothing, empty]
      rfl
    · refine ⟨after.text ++ ']' :: rest, trimmed, ?_⟩
      have starts : Text.Stops Text.isBlank (value.text ++ (after.text ++ ']' :: rest)) :=
        Text.FilledRun.stops_append ⟨value, empty⟩
          (fun _ bare => isBlank_eq_false_of_isBareCharacter bare) _
      have ends : Text.Stops isBareCharacter (after.text ++ ']' :: rest) :=
        (after.stops fun _ blank => isBareCharacter_eq_false_of_isBlank blank).append
          (Text.stops_cons (by decide))
      have plain : Text.Stops isQuote (after.text ++ ']' :: rest) :=
        (after.stops fun _ blank => isQuote_eq_false_of_isBlank blank).append
          (Text.stops_cons (by decide))
      rw [Text.trimStart_append before starts]
      exact readValue_append value ends plain

/-- A comparison does not begin with a closing bracket. -/
theorem Comparison.readClose_eq_none (comparison : Comparison) (rest : List Char) :
    readClose (comparison.text ++ rest) = none := by
  have starts : Text.Stops (· == ']') (comparison.text ++ rest) := by
    rw [Comparison.text, List.append_assoc]
    refine (comparison.sign.stops fun character operates => ?_).append (Text.stops_cons rfl)
    simp only [isOperatorCharacter, Bool.not_eq_true', Bool.or_eq_false_iff] at operates
    exact operates.1.1.1.2
  unfold readClose
  split
  · rename_i same
    exact absurd (starts ']' (by rw [same]; rfl)) (by decide)
  · rfl

/-- Behind the name, the comparison or nothing is read up to the closing bracket. -/
theorem readTest_append (name : String) (comparison : Option Comparison) (rest : List Char) :
    readTest name (comparison.elim [] Comparison.text ++ ']' :: rest) =
      some (⟨comparison.elim .present Comparison.operator, name,
        comparison.map fun comparison => comparison.value.value⟩, rest) := by
  cases comparison with
  | none => rfl
  | some comparison =>
    have notClosed := comparison.readClose_eq_none (']' :: rest)
    obtain ⟨sign, before, value, after⟩ := comparison
    obtain ⟨behind, closes, readBack⟩ := exists_readValue before after value rest
    simp only [Option.elim_some, Comparison.text, List.append_assoc, List.cons_append,
      Option.map_some] at notClosed ⊢
    rw [readTest, notClosed, readOperator_append]
    simp only [Option.bind_eq_bind, Option.bind_some, readBack, closes]
    rfl

/-- Behind the blanks after the name stands an operator or the closing bracket. -/
theorem stops_comparison {property : Char → Bool} (comparison : Option Comparison)
    (rest : List Char)
    (operator : ∀ character, isOperatorCharacter character → property character = false)
    (equals : property '=' = false) (closing : property ']' = false) :
    Text.Stops property (comparison.elim [] Comparison.text ++ ']' :: rest) := by
  cases comparison with
  | none => exact Text.stops_cons closing
  | some comparison =>
    rw [Option.elim_some, Comparison.text, List.append_assoc]
    exact (comparison.sign.stops operator).append (Text.stops_cons equals)

/-- Whatever stands behind a clause, the clause is read whole. -/
theorem Form.read_append (form : Form) (rest : List Char) :
    AttributeClause.read (form.text ++ rest) = some (form.test, rest) := by
  obtain ⟨before, name, after, comparison⟩ := form
  have behind := readTest_append (String.ofList name.text) comparison rest
  have noBlank := stops_comparison comparison rest
    (fun _ operates => (isOperatorCharacter_apart operates).1) (by decide) (by decide)
  have noName := stops_comparison comparison rest
    (fun _ operates => (isOperatorCharacter_apart operates).2) (by decide) (by decide)
  simp only [text, List.cons_append, List.append_assoc, List.nil_append]
  generalize comparison.elim [] Comparison.text ++ ']' :: rest = tail
    at behind noBlank noName ⊢
  have opened := Text.trimStart_append before
    (name.stops_append (fun _ inside => isBlank_eq_false_of_isNameCharacter inside)
      (after.text ++ tail))
  have ends : Text.Stops isNameCharacter (after.text ++ tail) :=
    (after.stops fun _ blank => isNameCharacter_eq_false_of_isBlank blank).append noName
  have taken := name.takeWhile_append ends
  have left := name.dropWhile_append ends
  rw [AttributeClause.read]
  simp only [opened, taken, left, Text.trimStart_append after noBlank]
  split
  · rename_i nothing
    exact absurd nothing name.filled
  · exact behind

/-- Whether a character stands in a clause before anything in quotes. -/
def isInnerCharacter (character : Char) : Bool := !(isQuote character || character == ']')

/-- A blank stands in a clause before anything in quotes. -/
theorem isInnerCharacter_of_isBlank {character : Char} (blank : Text.isBlank character) :
    isInnerCharacter character := by
  have bare : character ≠ ']' := by
    rintro rfl
    exact absurd blank (by decide)
  simp [isInnerCharacter, isQuote_eq_false_of_isBlank blank, bare]

/-- A bare character stands in a clause before anything in quotes. -/
theorem isInnerCharacter_of_isBareCharacter {character : Char} (bare : isBareCharacter character) :
    isInnerCharacter character := by
  have unquoted := isQuote_eq_false_of_isBareCharacter bare
  simp only [isBareCharacter, Bool.not_eq_true', Bool.or_eq_false_iff] at bare
  simp [isInnerCharacter, unquoted, bare.1.1.2]

/-- A comparison has no quote in it, or ends with a value in quotes and blanks. -/
theorem Comparison.innerCharacters (comparison : Comparison) :
    (∀ character ∈ comparison.text, isInnerCharacter character) ∨
      ∃ (front : Text.Run isInnerCharacter) (quote : Char) (value : Text.Run (· != quote))
        (after : Text.Blanks), isQuote quote ∧
          comparison.text = front.text ++ quote :: (value.text ++ quote :: after.text) := by
  obtain ⟨sign, before, value, after⟩ := comparison
  have front : ∀ character ∈ sign.text ++ '=' :: before.text, isInnerCharacter character := by
    simp only [List.forall_mem_append, List.forall_mem_cons]
    exact ⟨fun character inside => isInnerCharacter_of_isBareCharacter
      (isBareCharacter_of_isOperatorCharacter (sign.holds character inside)), by decide,
      fun character inside => isInnerCharacter_of_isBlank (before.holds character inside)⟩
  cases value with
  | double value =>
    exact .inr ⟨⟨_, front⟩, '"', value, after, by decide,
      by simp [Comparison.text, WrittenValue.text]⟩
  | single value =>
    exact .inr ⟨⟨_, front⟩, '\x27', value, after, by decide,
      by simp [Comparison.text, WrittenValue.text]⟩
  | bare value =>
    refine .inl ?_
    have whole : Comparison.text ⟨sign, before, .bare value, after⟩ =
        (sign.text ++ '=' :: before.text) ++ (value.text ++ after.text) := by
      simp [Comparison.text, WrittenValue.text]
    rw [whole]
    refine List.forall_mem_append.mpr ⟨front, List.forall_mem_append.mpr ⟨?_, ?_⟩⟩
    · exact fun character inside =>
        isInnerCharacter_of_isBareCharacter (value.holds character inside)
    · exact fun character inside => isInnerCharacter_of_isBlank (after.holds character inside)

/-- A clause has no quote in it, or goes up to a value in quotes without closing before. -/
theorem Form.innerCharacters (form : Form) :
    (∃ inner : Text.Run isInnerCharacter, form.text = '[' :: (inner.text ++ [']'])) ∨
      ∃ (front : Text.Run isInnerCharacter) (quote : Char) (value : Text.Run (· != quote))
        (after : Text.Blanks), isQuote quote ∧
          form.text =
            '[' :: (front.text ++ quote :: (value.text ++ quote :: (after.text ++ [']']))) := by
  obtain ⟨before, name, after, comparison⟩ := form
  have named : ∀ character ∈ before.text ++ (name.text ++ after.text),
      isInnerCharacter character := by
    simp only [List.forall_mem_append]
    exact ⟨fun character inside => isInnerCharacter_of_isBlank (before.holds character inside),
      fun character inside => isInnerCharacter_of_isBareCharacter
        (isBareCharacter_of_isNameCharacter (name.holds character inside)),
      fun character inside => isInnerCharacter_of_isBlank (after.holds character inside)⟩
  cases comparison with
  | none => exact .inl ⟨⟨_, named⟩, by simp [Form.text]⟩
  | some comparison =>
    rcases comparison.innerCharacters with inner | ⟨front, quote, value, last, quotes, same⟩
    · exact .inl ⟨⟨_, List.forall_mem_append.mpr ⟨named, inner⟩⟩, by simp [Form.text]⟩
    · exact .inr ⟨⟨_, List.forall_mem_append.mpr ⟨named, front.holds⟩⟩, quote, value, last, quotes,
        by simp [Form.text, same]⟩

/-- An operator that is read is a sign with an equals sign behind it. -/
theorem exists_of_readOperator {text rest : List Char} {operator : AttributeOperator}
    (found : readOperator text = some (operator, rest)) :
    ∃ sign : Text.Run isOperatorCharacter, text = sign.text ++ '=' :: rest ∧
      operator = .ofSymbol (String.ofList (sign.text ++ ['='])) := by
  unfold readOperator at found
  split at found
  · rename_i tail left
    cases found
    have whole := Text.Run.atStart_append isOperatorCharacter text
    rw [left] at whole
    exact ⟨.atStart isOperatorCharacter text, whole.symm, rfl⟩
  · cases found

/-- A quoted value that is read stands in front of the quote that closes it. -/
theorem exists_of_readQuoted {quote : Char} {text rest : List Char} {value : String}
    (found : readQuoted quote text = some (value, rest)) :
    ∃ run : Text.Run (· != quote), text = run.text ++ quote :: rest ∧
      value = String.ofList run.text := by
  unfold readQuoted at found
  split at found
  · cases found
  · rename_i close tail left
    cases found
    have stops := Text.stops_dropWhile (· != quote) text
    have whole := Text.Run.atStart_append (· != quote) text
    rw [left] at stops whole
    obtain rfl : close = quote := by simpa using stops close rfl
    exact ⟨.atStart _ text, whole.symm, rfl⟩

/-- A value that is read stands at the front, in quotes or bare. -/
theorem exists_of_readValue {text rest : List Char} {value : String}
    (found : readValue text = some (value, rest)) :
    ∃ written : WrittenValue, text = written.text ++ rest ∧ value = written.value := by
  unfold readValue at found
  split at found
  · obtain ⟨run, rfl, same⟩ := exists_of_readQuoted found
    exact ⟨.double run, by simp [WrittenValue.text], same⟩
  · obtain ⟨run, rfl, same⟩ := exists_of_readQuoted found
    exact ⟨.single run, by simp [WrittenValue.text], same⟩
  · cases found
    exact ⟨.bare (.atStart isBareCharacter text),
      (Text.Run.atStart_append isBareCharacter text).symm, rfl⟩

/-- Where a clause closes stands a bracket. -/
theorem eq_of_readClose {text rest : List Char} (found : readClose text = some rest) :
    text = ']' :: rest := by
  unfold readClose at found
  split at found
  · cases found
    rfl
  · cases found

/-- A test that is read is a comparison or nothing, and the bracket that closes the clause. -/
theorem exists_of_readTest {name : String} {text rest : List Char} {test : AttributeTest}
    (found : readTest name text = some (test, rest)) :
    ∃ comparison : Option Comparison, text = comparison.elim [] Comparison.text ++ ']' :: rest ∧
      test = ⟨comparison.elim .present Comparison.operator, name,
        comparison.map fun comparison => comparison.value.value⟩ := by
  unfold readTest at found
  split at found
  · rename_i after close
    cases found
    exact ⟨none, eq_of_readClose close, rfl⟩
  · simp only [Option.bind_eq_bind, Option.bind_eq_some_iff, Prod.exists] at found
    obtain ⟨operator, first, readFirst, value, second, readSecond, third, readThird, same⟩ := found
    cases same
    obtain ⟨sign, rfl, rfl⟩ := exists_of_readOperator readFirst
    obtain ⟨written, front, rfl⟩ := exists_of_readValue readSecond
    obtain ⟨before, opens⟩ := Text.exists_trimStart first
    obtain ⟨after, closes⟩ := Text.exists_trimStart second
    refine ⟨some ⟨sign, before, written, after⟩, ?_, rfl⟩
    rw [opens, front, closes, eq_of_readClose readThird]
    simp [Comparison.text]

/-- Reading finds a clause exactly where one of the forms stands, and makes of it what the form
writes. -/
theorem read_eq_some_iff {text rest : List Char} {test : AttributeTest} :
    piece.read text = some (test, rest) ↔
      ∃ form : Form, text = form.text ++ rest ∧ form.test = test := by
  change AttributeClause.read text = some (test, rest) ↔ _
  constructor
  · intro found
    unfold AttributeClause.read at found
    split at found
    · rename_i inner
      simp only at found
      split at found
      · cases found
      · rename_i filled
        obtain ⟨before, opens⟩ := Text.exists_trimStart inner
        obtain ⟨name, taken, named⟩ := Text.FilledRun.exists_dropWhile filled
        obtain ⟨after, ends⟩ :=
          Text.exists_trimStart ((Text.trimStart inner).dropWhile isNameCharacter)
        rw [taken] at found
        obtain ⟨comparison, closes, rfl⟩ := exists_of_readTest found
        rw [closes] at ends
        rw [ends] at named
        rw [named] at opens
        exact ⟨⟨before, name, after, comparison⟩, by simp [opens, Form.text], rfl⟩
    · cases found
  · rintro ⟨form, rfl, rfl⟩
    exact form.read_append rest

/-- Reading finds no clause exactly where none of the forms stands. -/
theorem read_eq_none_iff {text : List Char} :
    piece.read text = none ↔ ∀ (form : Form) (rest : List Char), text ≠ form.text ++ rest := by
  constructor
  · rintro missing form rest rfl
    have found : piece.read (form.text ++ rest) = some (form.test, rest) := form.read_append rest
    rw [missing] at found
    cases found
  · intro formless
    cases found : piece.read text with
    | none => rfl
    | some result =>
      obtain ⟨form, same, _⟩ := read_eq_some_iff.mp found
      exact absurd same (formless form result.2)

end AttributeClause

/-- The form of a written clause. -/
def WrittenClause.form (clause : WrittenClause) : Form where
  before := clause.before
  name := clause.name
  after := clause.after
  comparison := clause.comparison.map fun comparison =>
    ⟨⟨comparison.operator.sign, fun _ inside =>
      comparison.operator.isOperatorCharacter_of_mem_sign inside⟩,
      comparison.before, comparison.value, comparison.after⟩

/-- A written clause has the text of its form. -/
theorem WrittenClause.text_form (clause : WrittenClause) : clause.form.text = clause.text := by
  obtain ⟨before, name, after, comparison⟩ := clause
  cases comparison <;> rfl

/-- A written clause writes what its form does. -/
theorem WrittenClause.test_form (clause : WrittenClause) : clause.form.test = clause.test := by
  obtain ⟨before, name, after, comparison⟩ := clause
  cases comparison with
  | none => rfl
  | some comparison =>
    have operator := AttributeOperator.ofSymbol_sign comparison.compares
    simp only [form, Form.test, Comparison.operator, test, Option.map_some, Option.elim_some,
      operator]

/-- Whatever stands behind a written clause, the clause is read back whole. -/
theorem WrittenClause.read_append (clause : WrittenClause) (rest : List Char) :
    AttributeClause.piece.read (clause.text ++ rest) = some (clause.test, rest) := by
  rw [← clause.text_form, ← clause.test_form]
  exact clause.form.read_append rest

end TreeQuery
