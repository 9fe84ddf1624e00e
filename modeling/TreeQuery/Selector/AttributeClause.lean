import TreeQuery.Selector.AttributeTest
import TreeQuery.Text.Basic
import TreeQuery.Text.Piece
import TreeQuery.Text.WordCharacter

/-!
# Attribute clauses

An attribute clause is written in brackets: the name of an attribute, and behind it an operator
and a value or neither. The operator is what stands before an equals sign and that sign; the value
is in quotes of either kind, or bare. Blanks between the parts do not count. Reading a clause never
has a choice: what a character can be depends on the part it stands in.
-/
namespace TreeQuery.AttributeClause

/-- Whether a character stands in the name of an attribute. -/
def isNameCharacter (character : Char) : Bool :=
  Text.isWordCharacter character || character == ':' || character == '.' || character == '-'

/-- Whether a character stands in an operator, before its equals sign. -/
def isOperatorCharacter (character : Char) : Bool :=
  !(isNameCharacter character || Text.isBlank character || character == ']' ||
    character == '"' || character == '\x27' || character == '=')

/-- Whether a character stands in a bare value. -/
def isBareCharacter (character : Char) : Bool :=
  !(Text.isBlank character || character == ']' || character == '"' || character == '\x27')

/-- Reads an operator. -/
def readOperator (text : List Char) : Option (AttributeOperator × List Char) :=
  match text.dropWhile isOperatorCharacter with
  | '=' :: rest =>
    some (.ofSymbol (String.ofList (text.takeWhile isOperatorCharacter ++ ['='])), rest)
  | _ => none

/-- Reads a value up to a closing quote. -/
def readQuoted (quote : Char) (text : List Char) : Option (String × List Char) :=
  match text.dropWhile (· != quote) with
  | [] => none
  | _ :: rest => some (String.ofList (text.takeWhile (· != quote)), rest)

/-- Reads a value, in quotes or bare. -/
def readValue (text : List Char) : Option (String × List Char) :=
  match text with
  | '"' :: rest => readQuoted '"' rest
  | '\x27' :: rest => readQuoted '\x27' rest
  | _ => some (String.ofList (text.takeWhile isBareCharacter), text.dropWhile isBareCharacter)

/-- Reads the bracket that closes a clause. -/
def readClose : List Char → Option (List Char)
  | ']' :: rest => some rest
  | _ => none

/-- Reads an operator and a value, or neither, and the closing bracket. -/
def readTest (name : String) (text : List Char) : Option (AttributeTest × List Char) :=
  match readClose text with
  | some rest => some (⟨.present, name, none⟩, rest)
  | none => do
    let (operator, rest) ← readOperator text
    let (value, rest) ← readValue (Text.trimStart rest)
    let rest ← readClose (Text.trimStart rest)
    some (⟨operator, name, some value⟩, rest)

/-- Reads a clause. -/
def read : List Char → Option (AttributeTest × List Char)
  | '[' :: text =>
    let inner := Text.trimStart text
    match inner.takeWhile isNameCharacter with
    | [] => none
    | name => readTest (String.ofList name) (Text.trimStart (inner.dropWhile isNameCharacter))
  | _ => none

/-- An operator read leaves no more of the text. -/
theorem length_le_of_readOperator {text rest : List Char} {operator : AttributeOperator}
    (found : readOperator text = some (operator, rest)) : rest.length ≤ text.length := by
  unfold readOperator at found
  split at found
  · rename_i tail split
    cases found
    have bound := (List.dropWhile_sublist isOperatorCharacter (l := text)).length_le
    rw [split] at bound
    exact Nat.le_of_succ_le bound
  · cases found

/-- A quoted value read leaves no more of the text. -/
theorem length_le_of_readQuoted {quote : Char} {text rest : List Char} {value : String}
    (found : readQuoted quote text = some (value, rest)) : rest.length ≤ text.length := by
  unfold readQuoted at found
  split at found
  · cases found
  · rename_i close tail split
    cases found
    have bound := (List.dropWhile_sublist (· != quote) (l := text)).length_le
    rw [split] at bound
    exact Nat.le_of_succ_le bound

/-- A value read leaves no more of the text. -/
theorem length_le_of_readValue {text rest : List Char} {value : String}
    (found : readValue text = some (value, rest)) : rest.length ≤ text.length := by
  unfold readValue at found
  split at found
  · exact Nat.le_succ_of_le (length_le_of_readQuoted found)
  · exact Nat.le_succ_of_le (length_le_of_readQuoted found)
  · cases found
    exact (List.dropWhile_sublist _).length_le

/-- A closing bracket read leaves less of the text. -/
theorem length_lt_of_readClose {text rest : List Char} (found : readClose text = some rest) :
    rest.length < text.length := by
  unfold readClose at found
  split at found
  · cases found
    exact Nat.lt_succ_self _
  · cases found

/-- A test read leaves less of the text. -/
theorem length_lt_of_readTest {name : String} {text rest : List Char} {test : AttributeTest}
    (found : readTest name text = some (test, rest)) : rest.length < text.length := by
  unfold readTest at found
  split at found
  · rename_i after close
    cases found
    exact length_lt_of_readClose close
  · simp only [Option.bind_eq_bind, Option.bind_eq_some_iff, Prod.exists] at found
    obtain ⟨operator, first, readFirst, value, second, readSecond, third, readThird, same⟩ := found
    cases same
    have one := length_le_of_readOperator readFirst
    have two := Nat.le_trans (length_le_of_readValue readSecond) (Text.length_trimStart_le first)
    have three :=
      Nat.lt_of_lt_of_le (length_lt_of_readClose readThird) (Text.length_trimStart_le second)
    omega

/-- Attribute clauses as pieces of a token. -/
def piece : Text.Piece AttributeTest where
  read := read
  shorter := by
    intro text test rest found
    unfold read at found
    split at found
    · rename_i tail
      simp only at found
      split at found
      · cases found
      · have one := length_lt_of_readTest found
        have two := Text.length_trimStart_le
          ((Text.trimStart tail).dropWhile isNameCharacter)
        have three :=
          (List.dropWhile_sublist isNameCharacter (l := Text.trimStart tail)).length_le
        have four := Text.length_trimStart_le tail
        simp only [List.length_cons]
        omega
    · cases found

end TreeQuery.AttributeClause
