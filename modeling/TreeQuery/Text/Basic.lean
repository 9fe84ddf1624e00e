/-!
# Texts

What is asked of the characters of a text and of runs of them. A property of characters that a
standard lists is written as the inclusive ranges of code points that have it, in increasing order.
A blank is a character with the Unicode property of white space, and trimming takes the blanks off
the ends of a text: what is left has no blank at a trimmed end, and the text is what is left with
the blanks put back. Tag names and the names of pseudo-classes are compared up to the case of ASCII
letters; every other character stands for itself. A run of decimal digits of ASCII writes a natural
number, and zeros in front of it do not count. A multi-valued attribute is a list of words separated
by ASCII blanks: space, tab, line feed, form feed and carriage return; the words are the pieces
between these that are not empty.
-/
namespace TreeQuery.Text

/-- Inclusive ranges of code points. -/
abbrev CodePoints := List (Nat × Nat)

/-- Whether a character's code point lies in one of the ranges. -/
def CodePoints.contains (ranges : CodePoints) (character : Char) : Bool :=
  ranges.any fun (low, high) => low ≤ character.toNat && character.toNat ≤ high

/-- The letters and digits of ASCII by their code points. -/
theorem isAlphanum_iff (character : Char) : character.isAlphanum ↔
    ((65 ≤ character.toNat ∧ character.toNat ≤ 90) ∨
      (97 ≤ character.toNat ∧ character.toNat ≤ 122)) ∨
      (48 ≤ character.toNat ∧ character.toNat ≤ 57) := by
  change (decide (65 ≤ character.val ∧ character.val ≤ 90) ||
    (decide (97 ≤ character.val) && decide (character.val ≤ 122)) ||
    (decide (48 ≤ character.val) && decide (character.val ≤ 57))) = true ↔ _
  simp only [Bool.or_eq_true, Bool.and_eq_true, decide_eq_true_eq, UInt32.le_iff_toNat_le]
  exact Iff.rfl

/-- Whether no range of one set meets a range of another. -/
def CodePoints.apart (first second : CodePoints) : Bool :=
  first.all fun (low, high) => second.all fun (floor, ceiling) => high < floor || ceiling < low

/-- A character is in one of two sets at most when they are apart. -/
theorem CodePoints.contains_eq_false_of_apart {first second : CodePoints}
    (apart : first.apart second) {character : Char} (inside : first.contains character) :
    second.contains character = false := by
  apply Bool.eq_false_iff.mpr
  intro both
  simp only [CodePoints.contains, List.any_eq_true, Bool.and_eq_true,
    decide_eq_true_eq] at inside both
  obtain ⟨range, listed, low, high⟩ := inside
  obtain ⟨other, alsoListed, floor, ceiling⟩ := both
  simp only [CodePoints.apart, List.all_eq_true, Bool.or_eq_true, decide_eq_true_eq] at apart
  have away := apart range listed other alsoListed
  omega

/-- The code points with the property of white space. -/
def blankRanges : CodePoints :=
  [(0x0009, 0x000D), (0x0020, 0x0020), (0x0085, 0x0085), (0x00A0, 0x00A0), (0x1680, 0x1680),
   (0x2000, 0x200A), (0x2028, 0x2029), (0x202F, 0x202F), (0x205F, 0x205F), (0x3000, 0x3000)]

/-- Whether a character is white space. -/
def isBlank (character : Char) : Bool := blankRanges.contains character

/-- Every character the core library calls white space is a blank. -/
theorem isBlank_of_isWhitespace {character : Char} (white : character.isWhitespace) :
    isBlank character := by
  simp only [Char.isWhitespace, Bool.or_eq_true, decide_eq_true_eq] at white
  rcases white with ((same | same) | same) | same <;> subst same <;> decide

/-- No letter or digit of ASCII is a blank. -/
theorem isBlank_eq_false_of_isAlphanum {character : Char} (alphanumeric : character.isAlphanum) :
    isBlank character = false := by
  rw [isAlphanum_iff] at alphanumeric
  simp only [isBlank, CodePoints.contains, blankRanges, List.any_cons, List.any_nil, Bool.or_false,
    Bool.or_eq_false_iff, Bool.and_eq_false_iff, decide_eq_false_iff_not]
  omega

/-- The text without the blanks at its start. -/
def trimStart (text : List Char) : List Char := text.dropWhile isBlank

/-- Trimming a start never lengthens a text. -/
theorem length_trimStart_le (text : List Char) : (trimStart text).length ≤ text.length :=
  (List.dropWhile_sublist isBlank).length_le

/-- The longest beginning of the text whose end the characters with the property do not reach. -/
def dropEndWhile (property : Char → Bool) (text : List Char) : List Char :=
  (text.reverse.dropWhile property).reverse

/-- The characters with the property that the text ends in. -/
def takeEndWhile (property : Char → Bool) (text : List Char) : List Char :=
  (text.reverse.takeWhile property).reverse

/-- A text is its beginning and its ending put together. -/
theorem dropEndWhile_append_takeEndWhile (property : Char → Bool) (text : List Char) :
    dropEndWhile property text ++ takeEndWhile property text = text := by
  rw [dropEndWhile, takeEndWhile, ← List.reverse_append, List.takeWhile_append_dropWhile,
    List.reverse_reverse]

/-- Dropping an ending never lengthens a text. -/
theorem length_dropEndWhile_le (property : Char → Bool) (text : List Char) :
    (dropEndWhile property text).length ≤ text.length := by
  have whole := congrArg List.length (dropEndWhile_append_takeEndWhile property text)
  rw [List.length_append] at whole
  omega

/-- The text without the blanks at its end. -/
def trimEnd (text : List Char) : List Char := dropEndWhile isBlank text

/-- The text without the blanks at either end. -/
def trim (text : List Char) : List Char := trimEnd (trimStart text)

/-- Trimming an end never lengthens a text. -/
theorem length_trimEnd_le (text : List Char) : (trimEnd text).length ≤ text.length :=
  length_dropEndWhile_le isBlank text

/-- Characters with the property at the end of a text are dropped. -/
theorem dropEndWhile_append {property : Char → Bool} {ending : List Char}
    (all : ∀ character ∈ ending, property character) (text : List Char) :
    dropEndWhile property (text ++ ending) = dropEndWhile property text := by
  have same : ∀ character ∈ ending.reverse, property character := by simpa using all
  rw [dropEndWhile, dropEndWhile, List.reverse_append, List.dropWhile_append_of_pos same]

/-- A text is kept whole when its last character does not have the property. -/
theorem dropEndWhile_append_singleton {property : Char → Bool} {last : Char}
    (plain : property last = false) (text : List Char) :
    dropEndWhile property (text ++ [last]) = text ++ [last] := by
  simp [dropEndWhile, plain]

/-- Nothing is taken from the end of a text that is kept whole. -/
theorem takeEndWhile_eq_nil_of_dropEndWhile {property : Char → Bool} {text : List Char}
    (kept : dropEndWhile property text = text) : takeEndWhile property text = [] := by
  have whole := dropEndWhile_append_takeEndWhile property text
  rw [kept] at whole
  exact List.append_right_eq_self.mp whole

/-- Behind a text that is kept whole, exactly the characters with the property are taken. -/
theorem takeEndWhile_append {property : Char → Bool} {text ending : List Char}
    (kept : dropEndWhile property text = text)
    (all : ∀ character ∈ ending, property character) :
    takeEndWhile property (text ++ ending) = ending := by
  have whole := dropEndWhile_append_takeEndWhile property (text ++ ending)
  rw [dropEndWhile_append all, kept] at whole
  exact List.append_cancel_left whole

/-- The text with its ASCII capitals made small. -/
def small (text : List Char) : List Char := text.map Char.toLower

/-- Whether two texts are the same up to the case of ASCII letters. -/
def sameLetters (left right : List Char) : Bool := small left == small right

/-- A text has its own letters. -/
theorem sameLetters_self (text : List Char) : sameLetters text text := by
  simp [sameLetters]

/-- Having the same letters does not depend on the order of the two texts. -/
theorem sameLetters_comm (left right : List Char) :
    sameLetters left right = sameLetters right left := by
  rw [sameLetters, sameLetters, Bool.eq_iff_iff, beq_iff_eq, beq_iff_eq, eq_comm]

/-- The value of a decimal digit. -/
def digitValue (digit : Char) : Nat := digit.toNat - '0'.toNat

/-- The number that decimal digits write. -/
def natural (digits : List Char) : Nat :=
  digits.foldl (fun value digit => 10 * value + digitValue digit) 0

/-- One more digit multiplies a number by ten and adds to it. -/
theorem natural_append_singleton (digits : List Char) (digit : Char) :
    natural (digits ++ [digit]) = 10 * natural digits + digitValue digit := by
  simp [natural]

/-- A zero in front does not count. -/
theorem natural_zero_cons (digits : List Char) : natural ('0' :: digits) = natural digits := rfl

/-- Whether a character separates the words of an attribute value. -/
def isSeparator (character : Char) : Bool :=
  character == ' ' || character == '\t' || character == '\n' || character == '\x0c' ||
    character == '\r'

/-- The words of a text, in order. -/
def words (text : List Char) : List (List Char) :=
  (text.splitOnP isSeparator).filter fun piece => !piece.isEmpty

/-- No word is empty. -/
theorem ne_nil_of_mem_words {text word : List Char} (listed : word ∈ words text) : word ≠ [] := by
  rintro rfl
  simp [words] at listed

end TreeQuery.Text
