import TreeQuery.Text.Piece

/-!
# Characters of JSON strings

Between the quotes of a string a character stands for itself, or is escaped: by a letter behind a
backslash, or by its UTF-16 units in hexadecimal, two of them for a character beyond the basic
plane. Half of such a pair is no character, and neither is a control that is not escaped.
-/
namespace TreeQuery.Json.Character

/-- The character that a letter behind a backslash stands for. -/
def escaped? : Char → Option Char
  | '"' => some '"'
  | '\\' => some '\\'
  | '/' => some '/'
  | 'b' => some '\x08'
  | 'f' => some '\x0c'
  | 'n' => some '\n'
  | 'r' => some '\r'
  | 't' => some '\t'
  | _ => none

/-- The value of a hexadecimal digit. -/
def hexValue? (digit : Char) : Option Nat :=
  if digit.isDigit then some (digit.toNat - '0'.toNat)
  else if 'a' ≤ digit ∧ digit ≤ 'f' then some (digit.toNat - 'a'.toNat + 10)
  else if 'A' ≤ digit ∧ digit ≤ 'F' then some (digit.toNat - 'A'.toNat + 10)
  else none

/-- Reads a unit of four hexadecimal digits. -/
def readUnit : List Char → Option (Nat × List Char)
  | first :: second :: third :: fourth :: rest => do
    let unit := (((← hexValue? first) * 16 + (← hexValue? second)) * 16 + (← hexValue? third)) * 16 +
      (← hexValue? fourth)
    some (unit, rest)
  | _ => none

/-- Whether a unit is the first half of a pair. -/
def isLeading (unit : Nat) : Bool := 0xD800 ≤ unit && unit < 0xDC00

/-- Whether a unit is the second half of a pair. -/
def isTrailing (unit : Nat) : Bool := 0xDC00 ≤ unit && unit < 0xE000

/-- The character of a pair of units. -/
def paired (leading trailing : Nat) : Char :=
  Char.ofNat (0x10000 + (leading - 0xD800) * 0x400 + (trailing - 0xDC00))

/-- Reads the second half of a pair, and gives the character of the pair. -/
def readTrailing (leading : Nat) : List Char → Option (Char × List Char)
  | '\\' :: 'u' :: text => do
    let (unit, rest) ← readUnit text
    if isTrailing unit then some (paired leading unit, rest) else none
  | _ => none

/-- Reads what stands behind a backslash. -/
def readEscape : List Char → Option (Char × List Char)
  | 'u' :: text => do
    let (unit, rest) ← readUnit text
    if isLeading unit then readTrailing unit rest
    else if isTrailing unit then none
    else some (Char.ofNat unit, rest)
  | letter :: rest => (escaped? letter).map (·, rest)
  | [] => none

/-- Reads a character. -/
def read : List Char → Option (Char × List Char)
  | [] => none
  | '\\' :: text => readEscape text
  | character :: rest => if character.toNat < 0x20 then none else some (character, rest)

/-- A unit read leaves less of the text. -/
theorem length_lt_of_readUnit {text rest : List Char} {unit : Nat}
    (found : readUnit text = some (unit, rest)) : rest.length < text.length := by
  unfold readUnit at found
  split at found
  · simp only [Option.bind_eq_bind, Option.bind_eq_some_iff] at found
    obtain ⟨_, _, _, _, _, _, _, _, same⟩ := found
    cases same
    simp only [List.length_cons]
    omega
  · cases found

/-- An escape read leaves less of the text. -/
theorem length_lt_of_readEscape {text rest : List Char} {character : Char}
    (found : readEscape text = some (character, rest)) : rest.length < text.length := by
  unfold readEscape at found
  split at found
  · rename_i tail
    simp only [Option.bind_eq_bind, Option.bind_eq_some_iff, Prod.exists] at found
    obtain ⟨unit, after, readFirst, last⟩ := found
    have first := length_lt_of_readUnit readFirst
    split at last
    · unfold readTrailing at last
      split at last
      · simp only [Option.bind_eq_bind, Option.bind_eq_some_iff, Prod.exists] at last
        obtain ⟨trailing, behind, readSecond, checked⟩ := last
        have second := length_lt_of_readUnit readSecond
        split at checked
        · obtain ⟨_, rfl⟩ := Prod.mk.inj (Option.some.inj checked)
          simp only [List.length_cons] at first ⊢
          omega
        · cases checked
      · cases last
    · split at last
      · cases last
      · cases last
        simp only [List.length_cons]
        omega
  · obtain ⟨value, _, same⟩ := Option.map_eq_some_iff.mp found
    cases same
    exact Nat.lt_succ_self _
  · cases found

/-- Characters as pieces of what stands between the quotes. -/
def piece : Text.Piece Char where
  read := read
  shorter := by
    intro text character rest found
    unfold read at found
    split at found
    · cases found
    · exact Nat.lt_succ_of_lt (length_lt_of_readEscape found)
    · split at found
      · cases found
      · cases found
        exact Nat.lt_succ_self _

/-- The hexadecimal digit of a value below sixteen. -/
def hexDigit (value : Nat) : Char := Nat.digitChar value

/-- The text of a character, escaped where it cannot stand for itself. -/
def toText (character : Char) : List Char :=
  if character = '"' then ['\\', '"']
  else if character = '\\' then ['\\', '\\']
  else if character = '\x08' then ['\\', 'b']
  else if character = '\x0c' then ['\\', 'f']
  else if character = '\n' then ['\\', 'n']
  else if character = '\r' then ['\\', 'r']
  else if character = '\t' then ['\\', 't']
  else if character.toNat < 0x20 then
    ['\\', 'u', '0', '0', hexDigit (character.toNat / 16), hexDigit (character.toNat % 16)]
  else [character]

end TreeQuery.Json.Character
