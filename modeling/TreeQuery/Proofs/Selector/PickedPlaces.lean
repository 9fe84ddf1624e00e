import Mathlib.Algebra.Order.Ring.Int
import Mathlib.Algebra.Ring.Parity
import TreeQuery.Proofs.Selector.CountingExpressions
/-!
# Picking places in bounded numbers

Whether an expression picks a place is computed in numbers of 128 bits with a sign: an operation
whose result does not fit, or a division by zero, has no result (`Wide`). The step of an expression
that was read is positive and fits 32 bits, and its offset fits 64 bits (`Nth.narrow_of_parse`). So
every operation on them and on a place that fits 64 bits has a result, and the answer is that of
unbounded numbers, in which steps divide (`Nth.picks?_of_parse`).
-/
namespace TreeQuery

namespace Wide

/-- A number fits 128 bits with a sign. -/
def Fits (value : Int) : Prop := -2 ^ 127 ≤ value ∧ value < 2 ^ 127

/-- Whether a number fits can be decided. -/
instance : DecidablePred Fits := fun _ => inferInstanceAs (Decidable (_ ∧ _))

/-- A number that fits. -/
def keep? (value : Int) : Option Int := if Fits value then some value else none

/-- The place with a number, or the largest number when the place does not fit. -/
def ofIndex (index : Nat) : Int := (keep? index).getD (2 ^ 127 - 1)

/-- The difference of two numbers. -/
def sub? (left right : Int) : Option Int := keep? (left - right)

/-- The remainder of a division towards zero, which leaves a remainder with the sign of the number
that is divided. -/
def rem? (left right : Int) : Option Int :=
  if right = 0 then none
  else do
    let _ ← keep? (left.tdiv right)
    keep? (left.tmod right)

/-- The remainder that is not negative. -/
def remEuclid? (left right : Int) : Option Int := do
  let remainder ← rem? left right
  if remainder < 0 then keep? (remainder + (← keep? |right|)) else some remainder

/-- A number below 2^127 without its sign fits. -/
theorem fits_of_natAbs_lt {value : Int} (small : value.natAbs < 2 ^ 127) : Fits value := by
  unfold Fits
  omega

/-- A number below 2^127 without its sign is kept. -/
theorem keep?_eq_some {value : Int} (small : value.natAbs < 2 ^ 127) :
    keep? value = some value :=
  if_pos (fits_of_natAbs_lt small)

/-- A place that fits 64 bits is kept. -/
theorem ofIndex_eq {index : Nat} (known : index < 2 ^ 64) : ofIndex index = index := by
  rw [ofIndex, keep?_eq_some (by omega), Option.getD_some]

/-- A division by a number other than zero has a remainder. -/
theorem rem?_eq_some {left right : Int} (small : left.natAbs < 2 ^ 127) (notZero : right ≠ 0) :
    rem? left right = some (left.tmod right) := by
  have quotient : (left.tdiv right).natAbs < 2 ^ 127 :=
    Nat.lt_of_le_of_lt (Int.natAbs_tdiv_le_natAbs left right) small
  have remainder : (left.tmod right).natAbs < 2 ^ 127 := by
    rw [Int.natAbs_tmod]
    exact Nat.lt_of_le_of_lt (Nat.mod_le _ _) small
  rw [rem?, if_neg notZero, keep?_eq_some quotient, keep?_eq_some remainder]
  rfl

/-- A place that fits 64 bits has a remainder, which is that of natural numbers. -/
theorem rem?_natCast {index step : Nat} (known : index < 2 ^ 64) (positive : 0 < step) :
    rem? index step = some ↑(index % step) := by
  rw [rem?_eq_some (by omega) (by omega), Int.ofNat_tmod]

/-- A remainder with the sign of the number that is divided, and the divisor once more when that is
negative, is the remainder that is not negative. -/
theorem lift_tmod_eq_emod (left : Int) {right : Int} (positive : 0 < right) :
    (if left.tmod right < 0 then left.tmod right + right else left.tmod right) = left % right := by
  have least : 0 ≤ left % right := Int.emod_nonneg left (Int.ne_of_gt positive)
  have below : left % right < right := Int.emod_lt_of_pos left positive
  have related : left % right =
      left.tmod right + ↑(if 0 ≤ left ∨ right ∣ left then 0 else right.natAbs) := Int.emod_eq_tmod
  by_cases whole : 0 ≤ left ∨ right ∣ left
  · rw [if_pos whole, Nat.cast_zero, Int.add_zero] at related
    rw [← related, if_neg (Int.not_lt.mpr least)]
  · rw [if_neg whole, Int.natAbs_of_nonneg (Int.le_of_lt positive)] at related
    rw [if_pos (by omega), related]

/-- A division by a positive number has a remainder that is not negative. -/
theorem remEuclid?_eq_some {left right : Int} (small : left.natAbs < 2 ^ 127)
    (positive : 0 < right) (narrow : right < 2 ^ 127) :
    remEuclid? left right = some (left % right) := by
  have least : 0 ≤ left % right := Int.emod_nonneg left (Int.ne_of_gt positive)
  have below : left % right < right := Int.emod_lt_of_pos left positive
  have lifted := lift_tmod_eq_emod left positive
  rw [remEuclid?, rem?_eq_some small (Int.ne_of_gt positive), abs_of_pos positive,
    keep?_eq_some (show right.natAbs < 2 ^ 127 by omega)]
  simp only [Option.bind_eq_bind, Option.bind_some]
  by_cases negative : left.tmod right < 0
  · rw [if_pos negative] at lifted ⊢
    rw [lifted]
    exact keep?_eq_some (by omega)
  · rw [if_neg negative] at lifted ⊢
    rw [lifted]

end Wide

namespace Nth

/-- Whether the place with a number is picked, in numbers of 128 bits with a sign. -/
def picks? (nth : Nth) (index : Nat) : Option Bool := do
  let place := Wide.ofIndex index
  match nth with
  | odd => return (← Wide.rem? place 2) == 1
  | even => return (← Wide.rem? place 2) == 0
  | formula (some step) (some offset) =>
    let difference ← Wide.sub? place (← Wide.keep? offset)
    return (← Wide.remEuclid? difference (← Wide.keep? step)) == 0
  | formula none (some offset) => return place == (← Wide.keep? offset)
  | formula (some step) none => return (← Wide.rem? place (← Wide.keep? step)) == 0
  | formula none none => return true

/-- Whether an expression stands for the place with a number. -/
def StandsFor : Nth → Nat → Prop
  | odd, index => Odd index
  | even, index => Even index
  | formula (some step) (some offset), index => (step : Int) ∣ index - offset
  | formula none (some offset), index => (index : Int) = offset
  | formula (some step) none, index => step ∣ index
  | formula none none, _ => True

/-- The numbers of an expression are those that can be read: a step that is positive and fits 32
bits, and an offset that fits 64 bits. -/
def Narrow : Nth → Prop
  | formula step offset =>
    (∀ number ∈ step, 0 < number ∧ number < 4294967296) ∧ ∀ value ∈ offset, Fits value
  | _ => True

/-- The numbers of an expression that was read are such. -/
theorem narrow_of_parse {expression : List Char} {nth : Nth}
    (read : Nth.parse expression = .ok nth) : nth.Narrow := by
  have found : ofCompact? (compact expression) = some nth := by
    rw [parse] at read
    split at read
    · rename_i found
      rw [found, Except.ok.inj read]
    · cases read
  obtain ⟨written, -, means⟩ := ofCompact?_eq_some_iff.mp found
  cases means with
  | odd | even => trivial
  | place fits | signedPlace fits | stepless zero fits => exact ⟨by simp, by simpa using fits⟩
  | steps positive small fits => exact ⟨by simpa using ⟨positive, small⟩, by simpa using fits⟩

/-- With such numbers, no operation is without a result at a place that fits 64 bits, and the answer
is that of unbounded numbers. -/
theorem picks?_eq_some {nth : Nth} (narrow : nth.Narrow) {index : Nat} (known : index < 2 ^ 64) :
    nth.picks? index = some (nth.picks index) := by
  have place := Wide.ofIndex_eq known
  have two : Wide.rem? index 2 = some ↑(index % 2) := Wide.rem?_natCast known Nat.two_pos
  have isZero : ∀ remainder : Nat, ((remainder : Int) == 0) = (remainder == 0) := fun _ => by
    rw [Bool.eq_iff_iff, beq_iff_eq, beq_iff_eq, Nat.cast_eq_zero]
  have isOne : ∀ remainder : Nat, ((remainder : Int) == 1) = (remainder == 1) := fun _ => by
    rw [Bool.eq_iff_iff, beq_iff_eq, beq_iff_eq, Nat.cast_eq_one]
  match nth with
  | odd =>
    simp only [picks?, picks, place, two, isOne, Option.bind_eq_bind, Option.bind_some,
      Option.pure_def]
  | even =>
    simp only [picks?, picks, place, two, isZero, Option.bind_eq_bind, Option.bind_some,
      Option.pure_def]
  | formula (some step) (some offset) =>
    obtain ⟨positive, small⟩ := narrow.1 step rfl
    obtain ⟨least, most⟩ := narrow.2 offset rfl
    have offsetKept : Wide.keep? offset = some offset := Wide.keep?_eq_some (by omega)
    have stepKept : Wide.keep? step = some ↑step := Wide.keep?_eq_some (by omega)
    have difference : Wide.sub? index offset = some (index - offset) :=
      Wide.keep?_eq_some (by omega)
    have remainder : Wide.remEuclid? (index - offset) step = some ((index - offset) % step) :=
      Wide.remEuclid?_eq_some (by omega) (by omega) (by omega)
    simp only [picks?, picks, place, offsetKept, stepKept, difference, remainder,
      Option.bind_eq_bind, Option.bind_some, Option.pure_def]
  | formula none (some offset) =>
    obtain ⟨least, most⟩ := narrow.2 offset rfl
    have offsetKept : Wide.keep? offset = some offset := Wide.keep?_eq_some (by omega)
    simp only [picks?, picks, place, offsetKept, Option.bind_eq_bind, Option.bind_some,
      Option.pure_def]
  | formula (some step) none =>
    obtain ⟨positive, small⟩ := narrow.1 step rfl
    have stepKept : Wide.keep? step = some ↑step := Wide.keep?_eq_some (by omega)
    simp only [picks?, picks, place, stepKept, Wide.rem?_natCast known positive, isZero,
      Option.bind_eq_bind, Option.bind_some, Option.pure_def]
  | formula none none => rfl

/-- In unbounded numbers an expression picks the places that it stands for. -/
theorem picks_iff_standsFor (nth : Nth) (index : Nat) : nth.picks index ↔ nth.StandsFor index := by
  match nth with
  | odd => rw [picks, StandsFor, beq_iff_eq, Nat.odd_iff]
  | even => rw [picks, StandsFor, beq_iff_eq, Nat.even_iff]
  | formula (some step) (some offset) =>
    rw [picks, StandsFor, beq_iff_eq, Int.dvd_iff_emod_eq_zero]
  | formula none (some offset) => rw [picks, StandsFor, beq_iff_eq]
  | formula (some step) none => rw [picks, StandsFor, beq_iff_eq, Nat.dvd_iff_mod_eq_zero]
  | formula none none => exact iff_of_true rfl trivial

/-- Where an expression was read, picking a place that fits 64 bits divides by no zero and computes
no number that does not fit 128 bits with a sign, and the answer is exact: the odd or the even
places, those that the step divides once the offset is taken off, the one place of an offset alone,
and every place without a step and an offset. -/
theorem picks?_of_parse {expression : List Char} {nth : Nth}
    (read : Nth.parse expression = .ok nth) {index : Nat} (known : index < 2 ^ 64) :
    nth.picks? index = some (nth.picks index) ∧ (nth.picks index ↔ nth.StandsFor index) :=
  ⟨picks?_eq_some (narrow_of_parse read) known, picks_iff_standsFor nth index⟩

/-- The largest place that fits 64 bits is one of the odd places, however far below zero the steps
of two start. -/
theorem picks?_of_parse_lowest :
    Nth.parse "2n-9223372036854775807".toList =
      .ok (.formula (some 2) (some (-9223372036854775807))) ∧
    2 ^ 64 - 1 < 2 ^ 64 ∧
    (formula (some 2) (some (-9223372036854775807))).picks? (2 ^ 64 - 1) = some true ∧
    ((formula (some 2) (some (-9223372036854775807))).picks (2 ^ 64 - 1) ↔
      (formula (some 2) (some (-9223372036854775807))).StandsFor (2 ^ 64 - 1)) := by
  have read : Nth.parse "2n-9223372036854775807".toList =
      .ok (.formula (some 2) (some (-9223372036854775807))) := rfl
  have known : 2 ^ 64 - 1 < 2 ^ 64 := by decide
  obtain ⟨answers, picked⟩ := picks?_of_parse read known
  exact ⟨read, known, answers, picked⟩

/-- A step of zero, which no expression has that was read, leaves nothing to divide by. -/
example : (formula (some 0) none).picks? 1 = none := rfl

end Nth

end TreeQuery
