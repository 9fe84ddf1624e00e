import Mathlib.Data.List.Forall2
import Mathlib.Data.List.TakeWhile
import Mathlib.Tactic.SplitIfs
import TreeQuery.Json.Token
/-!
# How tokens are written

A character of a JSON string can be written in several ways: as itself, by a letter behind a
backslash, or by its UTF-16 units with digits of either case (`Character.Written`). Whichever way is
taken, it is read back (`Character.read_append`), and no quote in it closes the string
(`Character.Written.passes`). So every writing of a token is read back as the token
(`Token.readBare_append`), and tokens with blanks around them as those tokens (`ofText?_of_spaced`).
Numbers are left out: a token that is one has no writing here.
-/
namespace TreeQuery.Json

namespace Character

/-- The letters that stand for characters behind a backslash. -/
def shortEscapes : List (Char × Char) :=
  [('"', '"'), ('\\', '\\'), ('/', '/'), ('b', '\x08'), ('f', '\x0c'), ('n', '\n'), ('r', '\r'),
   ('t', '\t')]

/-- A hexadecimal digit, of either case, with its value. -/
structure HexDigit (value : Nat) (digit : Char) : Prop where
  /-- There are sixteen digits. -/
  small : value < 16
  /-- A letter may be of either case. -/
  shape : digit = Nat.digitChar value ∨ digit = (Nat.digitChar value).toUpper

/-- Four digits that write a unit of UTF-16. -/
inductive WrittenUnit : Nat → List Char → Prop
  /-- The digits in order. -/
  | mk {first second third fourth : Nat} {thousands hundreds tens ones : Char}
    (firstDigit : HexDigit first thousands) (secondDigit : HexDigit second hundreds)
    (thirdDigit : HexDigit third tens) (fourthDigit : HexDigit fourth ones) :
    WrittenUnit (((first * 16 + second) * 16 + third) * 16 + fourth)
      [thousands, hundreds, tens, ones]

/-- The ways to write a character in a string. -/
inductive Written : Char → List Char → Prop
  /-- A character that is no control, quote or backslash may stand for itself. -/
  | plain {character : Char} (visible : 0x20 ≤ character.toNat) (noQuote : character ≠ '"')
    (noBackslash : character ≠ '\\') : Written character [character]
  /-- Some characters are named by a letter. -/
  | short {letter character : Char} (listed : (letter, character) ∈ shortEscapes) :
    Written character ['\\', letter]
  /-- A character of the basic plane is written by its unit. -/
  | unit {character : Char} {digits : List Char} (digitsOf : WrittenUnit character.toNat digits) :
    Written character ('\\' :: 'u' :: digits)
  /-- A character beyond the basic plane is written by two units. -/
  | pair {character : Char} {leading trailing : Nat} {first second : List Char}
    (firstOf : WrittenUnit leading first) (secondOf : WrittenUnit trailing second)
    (leads : 0xD800 ≤ leading ∧ leading < 0xDC00)
    (trails : 0xDC00 ≤ trailing ∧ trailing < 0xE000)
    (paired : character.toNat = 0x10000 + (leading - 0xD800) * 0x400 + (trailing - 0xDC00)) :
    Written character ('\\' :: 'u' :: first ++ '\\' :: 'u' :: second)

/-- A digit of either case has its value. -/
theorem HexDigit.hexValue?_eq {value : Nat} {digit : Char} (stands : HexDigit value digit) :
    hexValue? digit = some value := by
  have all : ∀ value < 16, hexValue? (Nat.digitChar value) = some value ∧
      hexValue? (Nat.digitChar value).toUpper = some value := by decide
  obtain ⟨lower, upper⟩ := all value stands.small
  rcases stands.shape with rfl | rfl
  · exact lower
  · exact upper

/-- A digit is no quote and no backslash. -/
theorem HexDigit.ne {value : Nat} {digit : Char} (stands : HexDigit value digit) :
    digit ≠ '"' ∧ digit ≠ '\\' := by
  have valued := stands.hexValue?_eq
  constructor
  all_goals
    rintro rfl
    cases valued

/-- A unit is read off the front. -/
theorem readUnit_append {unit : Nat} {digits : List Char} (written : WrittenUnit unit digits)
    (rest : List Char) : readUnit (digits ++ rest) = some (unit, rest) := by
  obtain ⟨first, second, third, fourth⟩ := written
  simp only [List.cons_append, List.nil_append, readUnit, first.hexValue?_eq, second.hexValue?_eq,
    third.hexValue?_eq, fourth.hexValue?_eq, Option.bind_eq_bind, Option.bind_some]

/-- No character is half of a pair. -/
theorem isHalf_eq_false (character : Char) :
    isLeading character.toNat = false ∧ isTrailing character.toNat = false := by
  have valid : character.toNat < 0xD800 ∨ 0xDFFF < character.toNat := by
    rcases character.valid with below | above
    · exact .inl below
    · exact .inr above.1
  simp only [isLeading, isTrailing, Bool.and_eq_false_iff, decide_eq_false_iff_not]
  omega

/-- Each way to write a character reads as the character. -/
theorem read_append {character : Char} {text : List Char} (written : Written character text)
    (rest : List Char) : read (text ++ rest) = some (character, rest) := by
  cases written with
  | plain visible noQuote noBackslash =>
    have seen : ¬character.toNat < 0x20 := by omega
    simp [read, seen]
  | short listed =>
    simp only [shortEscapes, List.mem_cons, Prod.mk.injEq, List.not_mem_nil, or_false] at listed
    rcases listed with ⟨rfl, rfl⟩ | ⟨rfl, rfl⟩ | ⟨rfl, rfl⟩ | ⟨rfl, rfl⟩ | ⟨rfl, rfl⟩ |
      ⟨rfl, rfl⟩ | ⟨rfl, rfl⟩ | ⟨rfl, rfl⟩ <;> rfl
  | unit digitsOf =>
    obtain ⟨noLeading, noTrailing⟩ := isHalf_eq_false character
    simp [read, readEscape, readUnit_append digitsOf, noLeading, noTrailing, Char.ofNat_toNat]
  | @pair _ leading trailing _ _ firstOf secondOf leads trails paired =>
    have half : isLeading leading = true := by simpa [isLeading] using leads
    have otherHalf : isTrailing trailing = true := by simpa [isTrailing] using trails
    simp [read, readEscape, readTrailing, readUnit_append firstOf, readUnit_append secondOf, half,
      otherHalf, Character.paired, ← paired, Char.ofNat_toNat]

/-- A control character is written by its unit, which has no more than two digits. -/
theorem written_control {character : Char} (control : character.toNat < 0x20) :
    Written character ['\\', 'u', '0', '0', hexDigit (character.toNat / 16),
      hexDigit (character.toNat % 16)] := by
  have digit : ∀ value < 16, HexDigit value (hexDigit value) := fun _ small => ⟨small, .inl rfl⟩
  have unit := WrittenUnit.mk (digit 0 (by omega)) (digit 0 (by omega))
    (digit (character.toNat / 16) (by omega)) (digit (character.toNat % 16) (by omega))
  have whole : ((0 * 16 + 0) * 16 + character.toNat / 16) * 16 + character.toNat % 16 =
      character.toNat := by omega
  rw [whole] at unit
  exact .unit unit

/-- Every character is written by its own text. -/
theorem written_toText (character : Char) : Written character (toText character) := by
  rw [toText]
  split_ifs with quote backslash back feed line carriage tab control
  case pos => exact .short (by simp [shortEscapes, quote])
  case pos => exact .short (by simp [shortEscapes, backslash])
  case pos => exact .short (by simp [shortEscapes, back])
  case pos => exact .short (by simp [shortEscapes, feed])
  case pos => exact .short (by simp [shortEscapes, line])
  case pos => exact .short (by simp [shortEscapes, carriage])
  case pos => exact .short (by simp [shortEscapes, tab])
  case pos => exact written_control control
  case neg => exact .plain (Nat.le_of_not_lt control) quote backslash

end Character

namespace Token

/-- A text in which no quote closes a string. -/
def Passes (text : List Char) : Prop :=
  ∀ rest, splitQuote (text ++ rest) =
    (splitQuote rest).map fun (inner, after) => (text ++ inner, after)

namespace Passes

/-- The empty text closes nothing. -/
theorem nil : Passes [] := by
  intro rest
  cases split : splitQuote rest <;> simp [split]

/-- Nothing is closed by texts that close nothing, one behind the other. -/
theorem append {former latter : List Char} (passes : Passes former) (others : Passes latter) :
    Passes (former ++ latter) := by
  intro rest
  rw [List.append_assoc, passes, others, Option.map_map]
  refine congrArg (Option.map · _) (funext fun pair => ?_)
  simp

/-- A character that is no quote and no backslash closes nothing. -/
theorem singleton {character : Char} (plain : character ≠ '"' ∧ character ≠ '\\') :
    Passes [character] := by
  intro rest
  simp [splitQuote, plain.1, plain.2]

/-- A character behind a backslash closes nothing. -/
theorem escape (character : Char) : Passes ['\\', character] := by
  intro rest
  rfl

/-- A unit with its mark closes nothing. -/
theorem unit {unit : Nat} {digits : List Char} (written : Character.WrittenUnit unit digits) :
    Passes ('\\' :: 'u' :: digits) := by
  obtain ⟨first, second, third, fourth⟩ := written
  exact (escape 'u').append ((singleton first.ne).append ((singleton second.ne).append
    ((singleton third.ne).append (singleton fourth.ne))))

end Passes

/-- No writing of a character closes a string. -/
theorem passes_of_written {character : Char} {text : List Char}
    (written : Character.Written character text) : Passes text := by
  cases written with
  | plain _ noQuote noBackslash => exact .singleton ⟨noQuote, noBackslash⟩
  | short _ => exact .escape _
  | unit digitsOf => exact .unit digitsOf
  | pair firstOf secondOf _ _ _ => exact (Passes.unit firstOf).append (.unit secondOf)

/-- A string is split at the quote behind its last character. -/
theorem splitQuote_flatten {characters : List Char} {texts : List (List Char)}
    (written : List.Forall₂ Character.Written characters texts) (rest : List Char) :
    splitQuote (texts.flatten ++ '"' :: rest) = some (texts.flatten, rest) := by
  have passes : Passes texts.flatten := by
    induction written with
    | nil => exact .nil
    | cons first _ ih => exact (passes_of_written first).append ih
  rw [passes, splitQuote]
  simp

/-- What is written between the quotes are the characters of the string. -/
theorem all?_flatten {characters : List Char} {texts : List (List Char)}
    (written : List.Forall₂ Character.Written characters texts) :
    Character.piece.all? texts.flatten = some characters := by
  induction written with
  | nil => exact Text.Piece.all?_nil _
  | @cons character text _ later first _ ih =>
    have front : Character.piece.read (text ++ later.flatten) = some (character, later.flatten) :=
      Character.read_append first later.flatten
    rw [List.flatten_cons, Text.Piece.all?_of_read front, ih]
    rfl

/-- The ways to write a token that is no number. -/
inductive Written : Token → List Char → Prop
  /-- An opening bracket. -/
  | openArray : Written .openArray ['[']
  /-- A closing bracket. -/
  | closeArray : Written .closeArray [']']
  /-- An opening brace. -/
  | openObject : Written .openObject ['{']
  /-- A closing brace. -/
  | closeObject : Written .closeObject ['}']
  /-- A colon. -/
  | colon : Written .colon [':']
  /-- A comma. -/
  | comma : Written .comma [',']
  /-- A string is written between quotes, each character in one of its ways. -/
  | string {value : String} {texts : List (List Char)}
    (characters : List.Forall₂ Character.Written value.toList texts) :
    Written (.string value) ('"' :: texts.flatten ++ ['"'])
  /-- The word for truth. -/
  | true : Written (.bool true) ['t', 'r', 'u', 'e']
  /-- The word for falsehood. -/
  | false : Written (.bool false) ['f', 'a', 'l', 's', 'e']
  /-- The word for no value. -/
  | null : Written .null ['n', 'u', 'l', 'l']

/-- Each way to write a token reads as the token. -/
theorem readBare_append {token : Token} {text : List Char} (written : Written token text)
    (rest : List Char) : readBare (text ++ rest) = some (token, rest) := by
  cases written with
  | string characters =>
    have split := splitQuote_flatten characters rest
    simp [readBare, readString, split, all?_flatten characters]
  | _ => rfl

/-- A token starts with a character that is no blank. -/
theorem Written.exists_head {token : Token} {text : List Char} (written : Written token text) :
    ∃ head tail, text = head :: tail ∧ isBlank head = Bool.false := by
  cases written <;> exact ⟨_, _, rfl, rfl⟩

/-- A text that writes tokens, with blanks before, between and behind them. -/
inductive Spaced : List Token → List Char → Prop
  /-- Blanks alone write no tokens. -/
  | nil {blanks : List Char} (blank : ∀ character ∈ blanks, isBlank character) : Spaced [] blanks
  /-- Blanks, the first token, and a text that writes the others. -/
  | cons {token : Token} {tokens : List Token} {blanks text rest : List Char}
    (blank : ∀ character ∈ blanks, isBlank character) (written : Written token text)
    (later : Spaced tokens rest) : Spaced (token :: tokens) (blanks ++ text ++ rest)

/-- More blanks may stand in front of a text that writes tokens. -/
theorem Spaced.behind {tokens : List Token} {blanks text : List Char}
    (blank : ∀ character ∈ blanks, isBlank character) (spaced : Spaced tokens text) :
    Spaced tokens (blanks ++ text) := by
  cases spaced with
  | nil others => exact .nil fun character listed =>
      (List.mem_append.mp listed).elim (blank character) (others character)
  | cons others written later =>
    have all := fun character listed =>
      (List.mem_append.mp listed).elim (blank character) (others character)
    rw [List.append_assoc, ← List.append_assoc, ← List.append_assoc]
    exact .cons all written later

/-- Texts that write tokens write all of them, one behind the other. -/
theorem Spaced.append {first second : List Token} {front back : List Char}
    (spaced : Spaced first front) (others : Spaced second back) :
    Spaced (first ++ second) (front ++ back) := by
  induction spaced with
  | nil blank => exact others.behind blank
  | cons blank written _ ih =>
    rw [List.append_assoc]
    exact .cons blank written ih

/-- A text that writes tokens reads as them. -/
theorem ofText?_of_spaced {tokens : List Token} {text : List Char} (spaced : Spaced tokens text) :
    ofText? text = some tokens := by
  rw [ofText?]
  induction spaced with
  | nil blank =>
    rw [List.dropWhile_eq_nil_iff.mpr blank]
    exact Text.Piece.all?_nil _
  | @cons token tokens blanks text rest blank written _ ih =>
    obtain ⟨head, tail, rfl, solid⟩ := written.exists_head
    have front : (blanks ++ head :: tail ++ rest).dropWhile isBlank = head :: tail ++ rest := by
      rw [List.append_assoc, List.dropWhile_append_of_pos blank, List.cons_append,
        List.dropWhile_cons, solid]
      rfl
    have first : piece.read (head :: tail ++ rest) = some (token, rest.dropWhile isBlank) := by
      change read _ = _
      rw [read, readBare_append written]
      rfl
    rw [front, Text.Piece.all?_of_read first, ih]
    rfl

/-- A token that is no number is written by its own text. -/
theorem written_toText {token : Token} (noNumber : ∀ number, token ≠ .number number) :
    Written token token.toText := by
  cases token with
  | string value =>
    rw [toText, List.flatMap_def]
    exact .string (List.forall₂_map_right_iff.mpr
      (List.forall₂_same.mpr fun character _ => Character.written_toText character))
  | number value => exact absurd rfl (noNumber value)
  | bool value =>
    cases value
    · exact .false
    · exact .true
  | openArray => exact .openArray
  | closeArray => exact .closeArray
  | openObject => exact .openObject
  | closeObject => exact .closeObject
  | colon => exact .colon
  | comma => exact .comma
  | null => exact .null

/-- Tokens that are no numbers are written by their own texts, one behind the other. -/
theorem spaced_flatMap {tokens : List Token}
    (noNumber : ∀ token ∈ tokens, ∀ number, token ≠ .number number) :
    Spaced tokens (tokens.flatMap toText) := by
  induction tokens with
  | nil => exact .nil (by simp)
  | cons token tokens ih =>
    have noBlanks : ∀ character ∈ ([] : List Char), isBlank character := by simp
    have first := written_toText (noNumber token List.mem_cons_self)
    exact .cons noBlanks first (ih fun other later =>
      noNumber other (List.mem_cons_of_mem token later))

end Token

end TreeQuery.Json
