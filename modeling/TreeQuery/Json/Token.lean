import TreeQuery.Json.Character
import TreeQuery.Json.Number

/-!
# Tokens of JSON

A JSON text is a sequence of tokens with blanks between them: brackets, braces, colons, commas,
strings, numbers and three words. Each token is read as far as it reaches, together with the blanks
behind it.
-/
namespace TreeQuery.Json

/-- A token. -/
inductive Token where
  /-- An opening bracket. -/
  | openArray
  /-- A closing bracket. -/
  | closeArray
  /-- An opening brace. -/
  | openObject
  /-- A closing brace. -/
  | closeObject
  /-- A colon. -/
  | colon
  /-- A comma. -/
  | comma
  /-- A string. -/
  | string (value : String)
  /-- A number. -/
  | number (value : Number)
  /-- One of the words for truth values. -/
  | bool (value : Bool)
  /-- The word for no value. -/
  | null
  deriving DecidableEq, Repr

namespace Token

/-- Whether a character may stand between tokens. -/
def isBlank (character : Char) : Bool :=
  character == ' ' || character == '\t' || character == '\n' || character == '\r'

/-- Splits the text behind an opening quote at the closing one. A character behind a backslash
closes nothing. -/
def splitQuote : List Char → Option (List Char × List Char)
  | [] => none
  | '"' :: rest => some ([], rest)
  | '\\' :: character :: rest =>
    (splitQuote rest).map fun (inner, after) => ('\\' :: character :: inner, after)
  | character :: rest => (splitQuote rest).map fun (inner, after) => (character :: inner, after)

/-- Reads a string behind its opening quote. -/
def readString (text : List Char) : Option (String × List Char) := do
  let (inner, rest) ← splitQuote text
  let characters ← Character.piece.all? inner
  some (String.ofList characters, rest)

/-- Reads a token. -/
def readBare : List Char → Option (Token × List Char)
  | '[' :: rest => some (openArray, rest)
  | ']' :: rest => some (closeArray, rest)
  | '{' :: rest => some (openObject, rest)
  | '}' :: rest => some (closeObject, rest)
  | ':' :: rest => some (colon, rest)
  | ',' :: rest => some (comma, rest)
  | '"' :: text => (readString text).map fun (value, rest) => (string value, rest)
  | 't' :: 'r' :: 'u' :: 'e' :: rest => some (bool true, rest)
  | 'f' :: 'a' :: 'l' :: 's' :: 'e' :: rest => some (bool false, rest)
  | 'n' :: 'u' :: 'l' :: 'l' :: rest => some (null, rest)
  | text => (Number.read text).map fun (value, rest) => (number value, rest)

/-- Reads a token and the blanks behind it. -/
def read (text : List Char) : Option (Token × List Char) :=
  (readBare text).map fun (token, rest) => (token, rest.dropWhile isBlank)

/-- A closing quote found leaves less of the text. -/
theorem length_lt_of_splitQuote {text inner after : List Char}
    (found : splitQuote text = some (inner, after)) : after.length < text.length := by
  fun_induction splitQuote text generalizing inner with
  | case1 => cases found
  | case2 =>
    cases found
    exact Nat.lt_succ_self _
  | case3 character rest ih =>
    obtain ⟨⟨first, second⟩, split, same⟩ := Option.map_eq_some_iff.mp found
    cases same
    have shorter := ih split
    simp only [List.length_cons]
    omega
  | case4 character rest _ _ ih =>
    obtain ⟨⟨first, second⟩, split, same⟩ := Option.map_eq_some_iff.mp found
    cases same
    exact Nat.lt_succ_of_lt (ih split)

/-- A string read leaves less of the text. -/
theorem length_lt_of_readString {text rest : List Char} {value : String}
    (found : readString text = some (value, rest)) : rest.length < text.length := by
  simp only [readString, Option.bind_eq_bind, Option.bind_eq_some_iff, Prod.exists] at found
  obtain ⟨inner, after, split, characters, _, same⟩ := found
  cases same
  exact length_lt_of_splitQuote split

/-- A token read leaves less of the text. -/
theorem length_lt_of_readBare {text rest : List Char} {token : Token}
    (found : readBare text = some (token, rest)) : rest.length < text.length := by
  unfold readBare at found
  split at found
  case h_7 =>
    obtain ⟨⟨value, after⟩, readInner, same⟩ := Option.map_eq_some_iff.mp found
    cases same
    exact Nat.lt_succ_of_lt (length_lt_of_readString readInner)
  case h_11 =>
    obtain ⟨⟨value, after⟩, readInner, same⟩ := Option.map_eq_some_iff.mp found
    cases same
    exact Number.length_lt_of_read readInner
  all_goals
    cases found
    simp only [List.length_cons]
    omega

/-- Tokens as pieces of a text. -/
def piece : Text.Piece Token where
  read := read
  shorter := by
    intro text token rest found
    obtain ⟨⟨bare, after⟩, readInner, same⟩ := Option.map_eq_some_iff.mp found
    cases same
    exact Nat.lt_of_le_of_lt (List.dropWhile_sublist _).length_le
      (length_lt_of_readBare readInner)

/-- The tokens of a text. -/
def ofText? (text : List Char) : Option (List Token) := piece.all? (text.dropWhile isBlank)

/-- The text of a token. -/
def toText : Token → List Char
  | openArray => ['[']
  | closeArray => [']']
  | openObject => ['{']
  | closeObject => ['}']
  | colon => [':']
  | comma => [',']
  | string value => '"' :: value.toList.flatMap Character.toText ++ ['"']
  | number value => value.toText
  | bool true => ['t', 'r', 'u', 'e']
  | bool false => ['f', 'a', 'l', 's', 'e']
  | null => ['n', 'u', 'l', 'l']

end Token

end TreeQuery.Json
