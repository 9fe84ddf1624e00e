import TreeQuery.Text.Basic

/-!
# Numbers in JSON

A number is kept as it is written: its sign, the digits of its whole part, its fraction and its
exponent. It is accepted when double precision can hold it. What is measured is the significand, as
many of its digits as fit 64 bits, times a power of ten (`scale`): both are rounded to double
precision, and their product must not round to infinity.
-/
namespace TreeQuery.Json

/-- A number as written. -/
structure Number where
  /-- Whether there is a minus sign. -/
  negative : Bool
  /-- The digits of the whole part. -/
  whole : List Char
  /-- The digits behind the point, if there is a point. -/
  fraction : Option (List Char)
  /-- The exponent, if there is one: its letter, its sign if written, and its digits. -/
  exponent : Option (Char × Option Char × List Char)
  deriving DecidableEq, Repr

namespace Number

/-- Takes digits into a significand as long as it fits 64 bits. The digits that do not are left. -/
def accumulate (significand : Nat) : List Char → Nat × List Char
  | [] => (significand, [])
  | digit :: rest =>
    let grown := 10 * significand + Text.digitValue digit
    if grown < Nat.pow 2 64 then accumulate grown rest else (significand, digit :: rest)

/-- The significand of a number, from its whole part and its fraction. -/
def significand (number : Number) : Nat :=
  (accumulate (accumulate 0 number.whole).1 (number.fraction.getD [])).1

/-- The exponent as written. -/
def writtenExponent (number : Number) : Int :=
  match number.exponent with
  | none => 0
  | some (_, sign, digits) =>
    if sign = some '-' then -(Text.natural digits : Int) else (Text.natural digits : Int)

/-- The power of ten that the significand is multiplied by: a digit of the whole part that is left
raises it and a digit of the fraction that is taken lowers it. -/
def scale (number : Number) : Int :=
  let (taken, left) := accumulate 0 number.whole
  let fraction := number.fraction.getD []
  let (_, ignored) := accumulate taken fraction
  (left.length : Int) - ((fraction.length : Int) - (ignored.length : Int)) + number.writtenExponent

/-- A natural number rounded to 53 binary places, a tie to the even neighbour. -/
def roundToDouble (value : Nat) : Nat :=
  if value < Nat.pow 2 53 then value
  else
    let unit := Nat.pow 2 (value.log2 - 52)
    let quotient := value / unit
    let remainder := value % unit
    if unit < 2 * remainder ∨ (unit = 2 * remainder ∧ quotient % 2 = 1) then (quotient + 1) * unit
    else quotient * unit

/-- The least product that double precision rounds to infinity. -/
def overflow : Nat := Nat.pow 2 1024 - Nat.pow 2 970

/-- Whether double precision can hold a number. -/
def isFinite (number : Number) : Bool :=
  if number.significand = 0 ∨ number.scale < 0 then true
  else if 308 < number.scale then false
  else
    roundToDouble number.significand * roundToDouble (Nat.pow 10 number.scale.toNat) < overflow

/-- Reads a run of digits that is not empty. -/
def readDigits (text : List Char) : Option (List Char × List Char) :=
  match text.takeWhile Char.isDigit with
  | [] => none
  | digits => some (digits, text.dropWhile Char.isDigit)

/-- Reads a whole part, which has no zero in front of other digits. -/
def readWhole (text : List Char) : Option (List Char × List Char) := do
  let (digits, rest) ← readDigits text
  if digits.head? = some '0' ∧ 1 < digits.length then none else some (digits, rest)

/-- Reads a fraction, if there is one. -/
def readFraction : List Char → Option (Option (List Char) × List Char)
  | '.' :: text => (readDigits text).map fun (digits, rest) => (some digits, rest)
  | text => some (none, text)

/-- Reads the sign and the digits of an exponent. -/
def readExponentDigits : List Char → Option (Option Char × List Char × List Char)
  | '+' :: text => (readDigits text).map fun (digits, rest) => (some '+', digits, rest)
  | '-' :: text => (readDigits text).map fun (digits, rest) => (some '-', digits, rest)
  | text => (readDigits text).map fun (digits, rest) => (none, digits, rest)

/-- Reads an exponent, if there is one. -/
def readExponent : List Char → Option (Option (Char × Option Char × List Char) × List Char)
  | [] => some (none, [])
  | letter :: text =>
    if letter = 'e' ∨ letter = 'E' then
      (readExponentDigits text).map fun (sign, digits, rest) => (some (letter, sign, digits), rest)
    else some (none, letter :: text)

/-- Reads a minus sign, if there is one. -/
def readSign : List Char → Bool × List Char
  | '-' :: text => (true, text)
  | text => (false, text)

/-- Reads a number that double precision can hold. -/
def read (text : List Char) : Option (Number × List Char) := do
  let (negative, rest) := readSign text
  let (whole, rest) ← readWhole rest
  let (fraction, rest) ← readFraction rest
  let (exponent, rest) ← readExponent rest
  let number : Number := ⟨negative, whole, fraction, exponent⟩
  if number.isFinite then some (number, rest) else none

/-- The text of a number. -/
def toText (number : Number) : List Char :=
  (if number.negative then ['-'] else []) ++ number.whole ++
    (match number.fraction with
      | none => []
      | some digits => '.' :: digits) ++
    (match number.exponent with
      | none => []
      | some (letter, sign, digits) => letter :: sign.toList ++ digits)

/-- Digits read leave less of the text. -/
theorem length_lt_of_readDigits {text digits rest : List Char}
    (found : readDigits text = some (digits, rest)) : rest.length < text.length := by
  unfold readDigits at found
  split at found
  · cases found
  · rename_i filled
    cases found
    have whole := congrArg List.length
      (List.takeWhile_append_dropWhile (p := Char.isDigit) (l := text))
    have some := List.length_pos_iff.mpr filled
    rw [List.length_append] at whole
    omega

/-- A number read leaves less of the text. -/
theorem length_lt_of_read {text rest : List Char} {number : Number}
    (found : read text = some (number, rest)) : rest.length < text.length := by
  simp only [read, Option.bind_eq_bind, Option.bind_eq_some_iff, Prod.exists] at found
  obtain ⟨whole, first, readFirst, fraction, second, readSecond, exponent, third, readThird,
    last⟩ := found
  have atSign : (readSign text).2.length ≤ text.length := by
    unfold readSign
    split <;> simp
  have atWhole : first.length < (readSign text).2.length := by
    simp only [readWhole, Option.bind_eq_bind, Option.bind_eq_some_iff, Prod.exists] at readFirst
    obtain ⟨digits, after, readRun, checked⟩ := readFirst
    split at checked
    · cases checked
    · cases checked
      exact length_lt_of_readDigits readRun
  have atFraction : second.length ≤ first.length := by
    unfold readFraction at readSecond
    split at readSecond
    · obtain ⟨⟨digits, after⟩, readRun, same⟩ := Option.map_eq_some_iff.mp readSecond
      cases same
      exact Nat.le_succ_of_le (Nat.le_of_lt (length_lt_of_readDigits readRun))
    · cases readSecond
      exact Nat.le_refl _
  have atExponent : third.length ≤ second.length := by
    unfold readExponent at readThird
    split at readThird
    · cases readThird
      exact Nat.le_refl _
    · split at readThird
      · obtain ⟨⟨sign, digits, after⟩, readRun, same⟩ := Option.map_eq_some_iff.mp readThird
        cases same
        unfold readExponentDigits at readRun
        split at readRun <;>
          (obtain ⟨⟨run, behind⟩, readInner, equal⟩ := Option.map_eq_some_iff.mp readRun
           cases equal
           have shorter := length_lt_of_readDigits readInner
           simp only [List.length_cons]
           omega)
      · cases readThird
        exact Nat.le_refl _
  split at last
  · cases last
    omega
  · cases last

end Number

end TreeQuery.Json
