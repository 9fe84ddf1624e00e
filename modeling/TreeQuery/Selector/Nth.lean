import TreeQuery.Selector.Error
import TreeQuery.Text.Basic

/-!
# Counting expressions

A counting expression picks places in a list of siblings, counted from one: the odd ones, the even
ones, or those of the form step × n + offset. Reading it ignores blanks and the case of letters.
The step is written without a sign, fits 32 bits and is dropped when it is zero; the offset is
signed and fits 64 bits.
-/
namespace TreeQuery

/-- A counting expression. -/
inductive Nth where
  /-- Every odd place. -/
  | odd
  /-- Every even place. -/
  | even
  /-- The places that a multiple of the step away from the offset leads to: with a step alone its
  multiples, with an offset alone that one place, with neither every place. -/
  | formula (step : Option Nat) (offset : Option Int)
  deriving DecidableEq, Repr

namespace Nth

/-- Whether the place with a number is picked. -/
def picks (nth : Nth) (index : Nat) : Bool :=
  match nth with
  | odd => index % 2 == 1
  | even => index % 2 == 0
  | formula (some step) (some offset) => ((index : Int) - offset) % (step : Int) == 0
  | formula none (some offset) => (index : Int) == offset
  | formula (some step) none => index % step == 0
  | formula none none => true

/-- One or more decimal digits as a number. -/
def number? (digits : List Char) : Option Nat :=
  if !digits.isEmpty && digits.all Char.isDigit then some (Text.natural digits) else none

/-- A number that fits 64 bits with a sign: it is less than 2^63, and not less than -2^63. -/
def signed? (value : Int) : Option Int :=
  if -9223372036854775808 ≤ value ∧ value < 9223372036854775808 then some value else none

/-- Decimal digits behind a sign. -/
def offset? : List Char → Option Int
  | '+' :: digits => do signed? (← number? digits)
  | '-' :: digits => do signed? (-(← number? digits))
  | _ => none

/-- Decimal digits, behind a sign or without one. -/
def constant? (text : List Char) : Option Int :=
  (offset? text) <|> (do signed? (← number? text))

/-- The step that digits write, which is none when they are missing or zero. It is less than
2^32. -/
def step? (digits : List Char) : Option (Option Nat) :=
  let step := Text.natural digits
  if step = 0 then some none
  else if step < 4294967296 then some (some step)
  else none

/-- Reads an expression that has no blanks and no capitals. -/
def ofCompact? (text : List Char) : Option Nth :=
  if text = ['o', 'd', 'd'] then some odd
  else if text = ['e', 'v', 'e', 'n'] then some even
  else match text.dropWhile Char.isDigit with
    | ['n'] => do some (formula (← step? (text.takeWhile Char.isDigit)) none)
    | 'n' :: offset => do
      some (formula (← step? (text.takeWhile Char.isDigit)) (some (← offset? offset)))
    | _ => do some (formula none (some (← constant? text)))

/-- The expression without blanks, in small letters. -/
def compact (expression : List Char) : List Char :=
  Text.small (expression.filter fun character => !Text.isBlank character)

/-- Reads an expression. -/
def parse (expression : List Char) : Except SelectorError Nth :=
  match ofCompact? (compact expression) with
  | some nth => .ok nth
  | none => .error (.invalidNth (String.ofList expression))

end Nth

end TreeQuery
