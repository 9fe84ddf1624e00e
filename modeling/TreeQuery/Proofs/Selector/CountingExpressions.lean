import Mathlib.Data.Option.Basic
import TreeQuery.Proofs.Text.Run
import TreeQuery.Selector.Nth
/-!
# Counting expressions as written

A counting expression is written as one of two words, as a number with or without a sign, or as
digits, the letter `n` and a number with a sign, where the digits and the number may be missing
(`WrittenNth`). Reading takes exactly what is written so and whose numbers are not too large, once
its blanks are left out and its capitals are made small, and refuses anything else as it stands
(`parse_iff_means`). What a formula is printed as is among the ways to write it.
-/
namespace TreeQuery

namespace Text

/-- Decimal digits that print a number write it. -/
@[simp] theorem natural_toDigits (number : Nat) : natural (Nat.toDigits 10 number) = number :=
  Nat.ofDigitChars_toDigits (by decide) (by decide)

/-- The digits that print a number. -/
def printed (number : Nat) : FilledRun Char.isDigit where
  text := Nat.toDigits 10 number
  holds _ inside := Nat.isDigit_of_mem_toDigits (by decide) (by decide) inside
  filled := Nat.toDigits_ne_nil

/-- A decimal digit comes before the letters. -/
theorem val_le_of_isDigit {digit : Char} (decimal : digit.isDigit) : digit.val ≤ 57 := by
  rw [Char.isDigit, Bool.and_eq_true] at decimal
  exact of_decide_eq_true decimal.2

/-- A decimal digit is no letter. -/
theorem isAlpha_eq_false_of_isDigit {digit : Char} (decimal : digit.isDigit) :
    digit.isAlpha = false := by
  have below := val_le_of_isDigit decimal
  apply Bool.eq_false_iff.mpr
  intro letter
  change (decide (65 ≤ digit.val ∧ digit.val ≤ 90) ||
    (decide (97 ≤ digit.val) && decide (digit.val ≤ 122))) = true at letter
  simp only [Bool.or_eq_true, Bool.and_eq_true, decide_eq_true_eq] at letter
  rcases letter with ⟨capital, -⟩ | ⟨small, -⟩
  · exact absurd (UInt32.le_trans capital below) (by decide)
  · exact absurd (UInt32.le_trans small below) (by decide)

/-- A decimal digit is no letter to make small. -/
theorem toLower_of_isDigit {digit : Char} (decimal : digit.isDigit) : digit.toLower = digit :=
  dif_neg fun capital =>
    absurd (UInt32.le_trans capital.1 (val_le_of_isDigit decimal)) (by decide)

end Text

namespace Nth

/-- A number fits 64 bits with a sign: it is less than 2^63, and not less than -2^63. -/
def Fits (value : Int) : Prop :=
  -9223372036854775808 ≤ value ∧ value < 9223372036854775808

end Nth

/-- A number behind its sign as written. -/
structure WrittenOffset where
  /-- Whether the sign is a minus. -/
  negative : Bool
  /-- The digits. -/
  digits : Text.FilledRun Char.isDigit

namespace WrittenOffset

/-- The text of a written number. -/
def text (offset : WrittenOffset) : List Char :=
  (if offset.negative then '-' else '+') :: offset.digits.text

/-- The number that is written. -/
def value (offset : WrittenOffset) : Int :=
  if offset.negative then -(Text.natural offset.digits.text : Int)
  else Text.natural offset.digits.text

/-- A number as it is printed with a sign. -/
def ofInt (value : Int) : WrittenOffset := ⟨value < 0, Text.printed value.natAbs⟩

/-- What is printed for a number writes it. -/
@[simp] theorem value_ofInt (value : Int) : (ofInt value).value = value := by
  simp only [WrittenOffset.value, ofInt, Text.printed, Text.natural_toDigits, decide_eq_true_eq]
  split <;> omega

end WrittenOffset

/-- A counting expression as written, without blanks and in small letters. -/
inductive WrittenNth where
  /-- The odd places. -/
  | odd
  /-- The even places. -/
  | even
  /-- One place. -/
  | place (digits : Text.FilledRun Char.isDigit)
  /-- One place, behind a sign. -/
  | signedPlace (offset : WrittenOffset)
  /-- Places in steps, from an offset where one is written. -/
  | steps (step : Text.Run Char.isDigit) (offset : Option WrittenOffset)

namespace WrittenNth

/-- The text of a written expression. -/
def text : WrittenNth → List Char
  | odd => ['o', 'd', 'd']
  | even => ['e', 'v', 'e', 'n']
  | place digits => digits.text
  | signedPlace offset => offset.text
  | steps step offset => step.text ++ 'n' :: offset.elim [] WrittenOffset.text

/-- What a written expression asks for, when its numbers are not too large. A step that is zero or
missing is none. -/
inductive Means : WrittenNth → Nth → Prop
  /-- The word for the odd places. -/
  | odd : Means odd .odd
  /-- The word for the even places. -/
  | even : Means even .even
  /-- The one place that digits write. -/
  | place {digits : Text.FilledRun Char.isDigit} (fits : Nth.Fits (Text.natural digits.text)) :
    Means (place digits) (.formula none (some (Text.natural digits.text)))
  /-- The one place that a number with a sign writes. -/
  | signedPlace {offset : WrittenOffset} (fits : Nth.Fits offset.value) :
    Means (signedPlace offset) (.formula none (some offset.value))
  /-- No step is written, or zero. -/
  | stepless {step : Text.Run Char.isDigit} {offset : Option WrittenOffset}
    (zero : Text.natural step.text = 0) (fits : ∀ written ∈ offset, Nth.Fits written.value) :
    Means (steps step offset) (.formula none (offset.map WrittenOffset.value))
  /-- A step is written that fits 32 bits: it is less than 2^32. -/
  | steps {step : Text.Run Char.isDigit} {offset : Option WrittenOffset}
    (positive : 0 < Text.natural step.text) (small : Text.natural step.text < 4294967296)
    (fits : ∀ written ∈ offset, Nth.Fits written.value) :
    Means (steps step offset)
      (.formula (some (Text.natural step.text)) (offset.map WrittenOffset.value))

end WrittenNth

namespace Nth

/-- Digits are read as the number they write, when there are any. -/
theorem number?_eq_some_iff {text : List Char} {value : Nat} : number? text = some value ↔
    ∃ digits : Text.FilledRun Char.isDigit, digits.text = text ∧
      Text.natural digits.text = value := by
  rw [number?, Option.ite_none_right_eq_some, Bool.and_eq_true, Bool.not_eq_true',
    List.isEmpty_eq_false_iff, List.all_eq_true, Option.some.injEq]
  constructor
  · rintro ⟨⟨filled, decimal⟩, same⟩
    exact ⟨⟨⟨text, decimal⟩, filled⟩, rfl, same⟩
  · rintro ⟨digits, rfl, same⟩
    exact ⟨⟨digits.filled, digits.holds⟩, same⟩

/-- A number is kept when it fits. -/
theorem signed?_eq_some_iff {number value : Int} :
    signed? number = some value ↔ Fits number ∧ number = value := by
  rw [signed?, Option.ite_none_right_eq_some, Option.some.injEq]
  rfl

/-- An offset is read when it is written behind a sign and fits. -/
theorem offset?_eq_some_iff {text : List Char} {value : Int} : offset? text = some value ↔
    ∃ offset : WrittenOffset, offset.text = text ∧ Fits offset.value ∧ offset.value = value := by
  constructor
  · intro found
    unfold offset? at found
    split at found
    · rename_i digits
      obtain ⟨number, read, fits⟩ := Option.bind_eq_some_iff.mp found
      obtain ⟨run, rfl, rfl⟩ := number?_eq_some_iff.mp read
      exact ⟨⟨false, run⟩, rfl, signed?_eq_some_iff.mp fits⟩
    · rename_i digits
      obtain ⟨number, read, fits⟩ := Option.bind_eq_some_iff.mp found
      obtain ⟨run, rfl, rfl⟩ := number?_eq_some_iff.mp read
      exact ⟨⟨true, run⟩, rfl, signed?_eq_some_iff.mp fits⟩
    · cases found
  · rintro ⟨⟨negative, digits⟩, rfl, fits, same⟩
    have read := number?_eq_some_iff.mpr ⟨digits, rfl, rfl⟩
    have kept := signed?_eq_some_iff.mpr ⟨fits, same⟩
    cases negative with
    | false => exact Option.bind_eq_some_iff.mpr ⟨_, read, kept⟩
    | true => exact Option.bind_eq_some_iff.mpr ⟨_, read, kept⟩

/-- No offset is read where no sign is written. -/
theorem offset?_digits (digits : Text.FilledRun Char.isDigit) : offset? digits.text = none := by
  obtain ⟨first, rest, same⟩ := List.exists_cons_of_ne_nil digits.filled
  have decimal := digits.holds first (by simp [same])
  rw [same, offset?]
  all_goals
    intro _ signed
    cases signed
    cases decimal

/-- A constant is read when it is written behind a sign or without one and fits. -/
theorem constant?_eq_some_iff {text : List Char} {value : Int} : constant? text = some value ↔
    (∃ offset : WrittenOffset, offset.text = text ∧ Fits offset.value ∧ offset.value = value) ∨
      ∃ digits : Text.FilledRun Char.isDigit, digits.text = text ∧
        Fits (Text.natural digits.text) ∧ (Text.natural digits.text : Int) = value := by
  rw [constant?, Option.orElse_eq_some, offset?_eq_some_iff]
  refine or_congr_right ⟨?_, ?_⟩
  · rintro ⟨_, found⟩
    obtain ⟨number, read, fits⟩ := Option.bind_eq_some_iff.mp found
    obtain ⟨digits, rfl, rfl⟩ := number?_eq_some_iff.mp read
    exact ⟨digits, rfl, signed?_eq_some_iff.mp fits⟩
  · rintro ⟨digits, rfl, fits⟩
    refine ⟨offset?_digits digits, Option.bind_eq_some_iff.mpr ?_⟩
    exact ⟨_, number?_eq_some_iff.mpr ⟨digits, rfl, rfl⟩, signed?_eq_some_iff.mpr fits⟩

/-- A step is read when it fits 32 bits, and is none when it is zero. -/
theorem step?_eq_some_iff {digits : List Char} {step : Option Nat} : step? digits = some step ↔
    (Text.natural digits = 0 ∧ none = step) ∨
      (0 < Text.natural digits ∧ Text.natural digits < 4294967296) ∧
        some (Text.natural digits) = step := by
  simp only [step?]
  by_cases zero : Text.natural digits = 0
  · simp [zero]
  · simp [zero, Nat.pos_of_ne_zero zero]

/-- What stands behind the letter is nothing or an offset. -/
theorem offsetBehind_eq_some_iff {text : List Char} {offset : Option Int} :
    (if text = [] then some none else (offset? text).map some) = some offset ↔
      ∃ written : Option WrittenOffset, written.elim [] WrittenOffset.text = text ∧
        (∀ number ∈ written, Fits number.value) ∧ written.map WrittenOffset.value = offset := by
  by_cases nothing : text = []
  · rw [if_pos nothing, Option.some.injEq]
    constructor
    · rintro rfl
      exact ⟨none, nothing.symm, nofun, rfl⟩
    · rintro ⟨_ | number, same, _, rfl⟩
      · rfl
      · rw [nothing] at same
        cases same
  · rw [if_neg nothing, Option.map_eq_some_iff]
    simp only [offset?_eq_some_iff]
    constructor
    · rintro ⟨_, ⟨number, rfl, fits, rfl⟩, rfl⟩
      exact ⟨some number, rfl, by simpa using fits, rfl⟩
    · rintro ⟨_ | number, same, fits, rfl⟩
      · exact absurd same.symm nothing
      · exact ⟨_, ⟨number, same, fits number rfl, rfl⟩, rfl⟩

/-- A text with the letter behind its digits is read as steps, from an offset where more is left. -/
theorem ofCompact?_of_letter {text rest : List Char}
    (behind : text.dropWhile Char.isDigit = 'n' :: rest) : ofCompact? text =
      (step? (text.takeWhile Char.isDigit)).bind fun step =>
        (if rest = [] then some none else (offset? rest).map some).map (formula step) := by
  rw [ofCompact?, if_neg, if_neg, behind]
  · cases rest with
    | nil => rfl
    | cons first others =>
      simp only [reduceCtorEq, ↓reduceIte, Option.map_map]
      cases step? (text.takeWhile Char.isDigit) with
      | none => rfl
      | some step => cases offset? (first :: others) <;> rfl
  · rintro rfl
    cases behind
  · rintro rfl
    cases behind

/-- A text that is no word and does not go on with the letter is read as one place. -/
theorem ofCompact?_of_stops {text : List Char} (notOdd : text ≠ ['o', 'd', 'd'])
    (notEven : text ≠ ['e', 'v', 'e', 'n'])
    (noLetter : ∀ rest, text.dropWhile Char.isDigit ≠ 'n' :: rest) :
    ofCompact? text = (constant? text).map fun place => formula none (some place) := by
  rw [ofCompact?, if_neg notOdd, if_neg notEven]
  split
  · rename_i found
    exact absurd found (noLetter [])
  · rename_i rest _ found
    exact absurd found (noLetter rest)
  · cases constant? text <;> rfl

/-- A constant is written without letters. -/
theorem isAlpha_eq_false_of_constant {text : List Char} {place : Int}
    (read : constant? text = some place) : ∀ character ∈ text, character.isAlpha = false := by
  have decimal : ∀ digits : Text.FilledRun Char.isDigit, ∀ character ∈ digits.text,
      character.isAlpha = false := fun digits character inside =>
    Text.isAlpha_eq_false_of_isDigit (digits.holds character inside)
  rcases constant?_eq_some_iff.mp read with ⟨⟨negative, digits⟩, rfl, _⟩ | ⟨digits, rfl, _⟩
  · intro character inside
    rcases List.mem_cons.mp inside with rfl | inside
    · cases negative <;> rfl
    · exact decimal digits character inside
  · exact decimal digits

/-- A constant that is written is read. -/
theorem ofCompact?_of_constant {text : List Char} {place : Int}
    (read : constant? text = some place) : ofCompact? text = some (formula none (some place)) := by
  have plain := isAlpha_eq_false_of_constant read
  rw [ofCompact?_of_stops _ _ _, read, Option.map_some]
  · rintro rfl
    cases plain 'o' (by decide)
  · rintro rfl
    cases plain 'e' (by decide)
  · intro rest behind
    have inside : 'n' ∈ text :=
      (List.dropWhile_sublist Char.isDigit).subset (behind ▸ List.mem_cons_self)
    cases plain 'n' inside

/-- Steps that are written are read. -/
theorem ofCompact?_of_step {digits : Text.Run Char.isDigit} {step : Option Nat}
    {offset : Option WrittenOffset} (read : step? digits.text = some step)
    (fits : ∀ number ∈ offset, Fits number.value) :
    ofCompact? (WrittenNth.steps digits offset).text =
      some (formula step (offset.map WrittenOffset.value)) := by
  have letter : Text.Stops Char.isDigit ('n' :: offset.elim [] WrittenOffset.text) :=
    Text.stops_cons (by decide)
  rw [WrittenNth.text, ofCompact?_of_letter (digits.dropWhile_append letter),
    digits.takeWhile_append letter, read, Option.bind_some,
    offsetBehind_eq_some_iff.mpr ⟨offset, rfl, fits, rfl⟩, Option.map_some]

/-- An expression without blanks and capitals is read as what is written. -/
theorem ofCompact?_eq_some_iff {text : List Char} {nth : Nth} : ofCompact? text = some nth ↔
    ∃ written : WrittenNth, written.text = text ∧ written.Means nth := by
  constructor
  · intro found
    by_cases odd : text = ['o', 'd', 'd']
    · rw [ofCompact?, if_pos odd] at found
      cases found
      exact ⟨.odd, odd.symm, .odd⟩
    by_cases even : text = ['e', 'v', 'e', 'n']
    · rw [ofCompact?, if_neg odd, if_pos even] at found
      cases found
      exact ⟨.even, even.symm, .even⟩
    by_cases letter : ∃ rest, text.dropWhile Char.isDigit = 'n' :: rest
    · obtain ⟨rest, behind⟩ := letter
      rw [ofCompact?_of_letter behind] at found
      obtain ⟨step, stepRead, found⟩ := Option.bind_eq_some_iff.mp found
      obtain ⟨offset, offsetRead, rfl⟩ := Option.map_eq_some_iff.mp found
      obtain ⟨number, rfl, fits, rfl⟩ := offsetBehind_eq_some_iff.mp offsetRead
      let digits : Text.Run Char.isDigit :=
        ⟨text.takeWhile Char.isDigit, List.all_eq_true.mp List.all_takeWhile⟩
      have whole : (WrittenNth.steps digits number).text = text := by
        rw [WrittenNth.text, ← behind, List.takeWhile_append_dropWhile]
      rcases step?_eq_some_iff.mp stepRead with ⟨zero, rfl⟩ | ⟨⟨positive, small⟩, rfl⟩
      · exact ⟨.steps digits number, whole, .stepless zero fits⟩
      · exact ⟨.steps digits number, whole, .steps positive small fits⟩
    · rw [ofCompact?_of_stops odd even fun rest same => letter ⟨rest, same⟩] at found
      obtain ⟨place, read, rfl⟩ := Option.map_eq_some_iff.mp found
      rcases constant?_eq_some_iff.mp read with
        ⟨offset, rfl, fits, rfl⟩ | ⟨digits, rfl, fits, rfl⟩
      · exact ⟨.signedPlace offset, rfl, .signedPlace fits⟩
      · exact ⟨.place digits, rfl, .place fits⟩
  · rintro ⟨written, rfl, means⟩
    cases means with
    | odd => rfl
    | even => rfl
    | @place digits fits =>
      exact ofCompact?_of_constant (constant?_eq_some_iff.mpr (.inr ⟨digits, rfl, fits, rfl⟩))
    | @signedPlace offset fits =>
      exact ofCompact?_of_constant (constant?_eq_some_iff.mpr (.inl ⟨offset, rfl, fits, rfl⟩))
    | stepless zero fits =>
      exact ofCompact?_of_step (step?_eq_some_iff.mpr (.inl ⟨zero, rfl⟩)) fits
    | steps positive small fits =>
      exact ofCompact?_of_step (step?_eq_some_iff.mpr (.inr ⟨⟨positive, small⟩, rfl⟩)) fits

/-- An expression is read when its compact form is written. -/
theorem parse_of_means {expression : List Char} {written : WrittenNth} {nth : Nth}
    (means : written.Means nth) (same : written.text = compact expression) :
    parse expression = .ok nth := by
  rw [parse, ofCompact?_eq_some_iff.mpr ⟨written, same, means⟩]

/-- The ways to print a formula: the step, the letter and the offset behind its sign, and without a
step also the offset alone. -/
def printed : Option Nat → Option Int → List WrittenNth
  | some step, offset => [.steps (Text.printed step).toRun (offset.map .ofInt)]
  | none, some offset =>
    [.signedPlace (.ofInt offset), .steps (.ofText [] (by decide)) (some (.ofInt offset))]
  | none, none => [.steps (.ofText [] (by decide)) none]

end Nth

namespace WrittenNth

/-- What is written has no blanks and no capitals. -/
theorem plain_of_mem_text (written : WrittenNth) : ∀ character ∈ written.text,
    Text.isBlank character = false ∧ character.toLower = character := by
  have decimal : ∀ digits : Text.Run Char.isDigit, ∀ character ∈ digits.text,
      Text.isBlank character = false ∧ character.toLower = character := by
    intro digits character inside
    have digit := digits.holds character inside
    have alphanumeric : character.isAlphanum := by rw [Char.isAlphanum, digit, Bool.or_true]
    exact ⟨Text.isBlank_eq_false_of_isAlphanum alphanumeric, Text.toLower_of_isDigit digit⟩
  have sign : ∀ negative : Bool, Text.isBlank (if negative then '-' else '+') = false ∧
      (if negative then '-' else '+').toLower = if negative then '-' else '+' := by decide
  have signed : ∀ offset : WrittenOffset, ∀ character ∈ offset.text,
      Text.isBlank character = false ∧ character.toLower = character := by
    intro offset character inside
    rcases List.mem_cons.mp inside with rfl | inside
    · exact sign offset.negative
    · exact decimal offset.digits.toRun character inside
  cases written with
  | odd =>
    simp only [text, List.forall_mem_cons]
    exact ⟨by decide, by decide, by decide, nofun⟩
  | even =>
    simp only [text, List.forall_mem_cons]
    exact ⟨by decide, by decide, by decide, by decide, nofun⟩
  | place digits => exact decimal digits.toRun
  | signedPlace offset => exact signed offset
  | steps step offset =>
    intro character inside
    rcases List.mem_append.mp inside with inside | inside
    · exact decimal step character inside
    rcases List.mem_cons.mp inside with rfl | inside
    · decide
    · cases offset with
      | none => cases inside
      | some offset => exact signed offset character inside

/-- What is written is its own compact form. -/
@[simp] theorem compact_text (written : WrittenNth) : Nth.compact written.text = written.text := by
  have kept : written.text.filter (fun character => !Text.isBlank character) = written.text := by
    rw [List.filter_eq_self]
    intro character inside
    rw [(written.plain_of_mem_text character inside).1, Bool.not_false]
  rw [Nth.compact, kept, Text.small]
  exact (List.map_congr_left fun character inside =>
    (written.plain_of_mem_text character inside).2).trans (List.map_id _)

/-- What is printed for a formula writes it. -/
theorem means_of_mem_printed {step : Option Nat} {offset : Option Int} {written : WrittenNth}
    (small : ∀ number ∈ step, 0 < number ∧ number < 4294967296)
    (fits : ∀ value ∈ offset, Nth.Fits value) (listed : written ∈ Nth.printed step offset) :
    written.Means (.formula step offset) := by
  have kept : (offset.map WrittenOffset.ofInt).map WrittenOffset.value = offset := by
    cases offset <;> simp
  have fitting : ∀ number ∈ offset.map WrittenOffset.ofInt, Nth.Fits number.value := by
    intro number inside
    obtain ⟨value, written, rfl⟩ := Option.mem_map.mp inside
    exact (WrittenOffset.value_ofInt value).symm ▸ fits value written
  cases step with
  | some number =>
    cases List.mem_singleton.mp listed
    have read : Text.natural (Text.printed number).text = number := Text.natural_toDigits number
    obtain ⟨positive, small⟩ := small number rfl
    have means : Means (steps (Text.printed number).toRun (offset.map WrittenOffset.ofInt)) _ :=
      .steps (read.symm ▸ positive) (read.symm ▸ small) fitting
    rwa [read, kept] at means
  | none =>
    have means : Means (steps (.ofText [] (by decide)) (offset.map WrittenOffset.ofInt)) _ :=
      .stepless rfl fitting
    rw [kept] at means
    cases offset with
    | none =>
      cases List.mem_singleton.mp listed
      exact means
    | some value =>
      rcases List.mem_cons.mp listed with rfl | listed
      · have place := Means.signedPlace (fitting (.ofInt value) rfl)
        rwa [WrittenOffset.value_ofInt] at place
      · cases List.mem_singleton.mp listed
        exact means

end WrittenNth

/-- The compact form of an expression has no blanks, and its ASCII capitals are made small. -/
theorem Nth.compact_eq (expression : List Char) : Nth.compact expression =
    (expression.filter fun character => !Text.isBlank character).map Char.toLower := rfl

/-- Counting expressions are read exactly as they are written: blanks left out and ASCII capitals
made small, what is read is what is written there, and an expression that is not written so is
refused as it stands. A formula is read back from every way to print it. -/
theorem Nth.parse_iff_means (expression : List Char) :
    (∀ nth, Nth.parse expression = .ok nth ↔
      ∃ written : WrittenNth, written.text =
          (expression.filter fun character => !Text.isBlank character).map Char.toLower ∧
        written.Means nth) ∧
    (∀ error, Nth.parse expression = .error error ↔
      error = .invalidNth (String.ofList expression) ∧
        ¬∃ written : WrittenNth, written.text =
            (expression.filter fun character => !Text.isBlank character).map Char.toLower ∧
          ∃ nth, written.Means nth) ∧
    ∀ step offset, (∀ number ∈ step, 0 < number ∧ number < 4294967296) →
      (∀ value ∈ offset, Nth.Fits value) → ∀ written ∈ Nth.printed step offset,
        Nth.parse written.text = .ok (.formula step offset) := by
  rw [← Nth.compact_eq]
  have reads : ∀ nth, Nth.ofCompact? (Nth.compact expression) = some nth ↔
      ∃ written : WrittenNth, written.text = Nth.compact expression ∧ written.Means nth :=
    fun nth => Nth.ofCompact?_eq_some_iff
  refine ⟨fun nth => ?_, fun error => ?_, fun step offset small fits written listed => ?_⟩
  · rw [← reads, Nth.parse]
    cases Nth.ofCompact? (Nth.compact expression) <;> simp
  · rw [Nth.parse]
    cases found : Nth.ofCompact? (Nth.compact expression) with
    | none =>
      have nothing : ¬∃ written : WrittenNth, written.text = Nth.compact expression ∧
          ∃ nth, written.Means nth := by
        rintro ⟨written, same, nth, means⟩
        have read := (reads nth).mpr ⟨written, same, means⟩
        rw [found] at read
        cases read
      simp only [nothing, not_false_eq_true, and_true, Except.error.injEq]
      exact eq_comm
    | some nth =>
      obtain ⟨written, same, means⟩ := (reads nth).mp found
      simp only [reduceCtorEq, false_iff, not_and, not_not]
      exact fun _ => ⟨written, same, nth, means⟩
  · exact Nth.parse_of_means (WrittenNth.means_of_mem_printed small fits listed)
      written.compact_text.symm

/-- Capitals and blanks of any kind may stand in an expression. -/
example : Nth.parse "\u2003OdD".toList = .ok .odd ∧
    Nth.parse "2N + 1\t".toList = .ok (.formula (some 2) (some 1)) := ⟨rfl, rfl⟩

end TreeQuery
