import Mathlib.Data.List.Basic
import TreeQuery.Text.Basic
/-!
# Where words stand

The words of a text are what stands between its separators. A separator parts the words before it
from those behind it (`words_append_cons`), so a text is understood from its first separator on
(`split_induction`), and something is a word of a text when it is not empty, holds no separator, and
stands there with a separator or an end of the text on either side (`mem_words_iff`).
-/
namespace TreeQuery.Text

/-- Whether a word stands in a text with a separator or an end of the text on either side. -/
def StandsIn (word text : List Char) : Prop :=
  ∃ before after, text = before ++ word ++ after ∧
    (∀ last ∈ before.getLast?, isSeparator last) ∧ ∀ first ∈ after.head?, isSeparator first

namespace StandsIn

variable {separator : Char} (separates : isSeparator separator)

/-- A word stands in itself. -/
theorem self (word : List Char) : StandsIn word word :=
  ⟨[], [], by simp, nofun, nofun⟩

include separates

/-- A word stands in front of a separator. -/
theorem front (word rest : List Char) : StandsIn word (word ++ separator :: rest) := by
  refine ⟨[], separator :: rest, rfl, nofun, fun first leads => ?_⟩
  obtain rfl : separator = first := Option.some.inj leads
  exact separates

/-- What stands behind a separator stands in the whole text. -/
theorem behind {word rest : List Char} (stands : StandsIn word rest) (front : List Char) :
    StandsIn word (front ++ separator :: rest) := by
  obtain ⟨before, after, rfl, ends, starts⟩ := stands
  refine ⟨front ++ separator :: before, after, by simp, fun last closes => ?_, starts⟩
  rw [List.getLast?_append, List.getLast?_cons, Option.some_or] at closes
  cases nearer : before.getLast? with
  | none =>
    rw [nearer] at closes
    obtain rfl : separator = last := Option.some.inj closes
    exact separates
  | some other =>
    rw [nearer] at closes
    obtain rfl : other = last := Option.some.inj closes
    exact ends other nearer

end StandsIn

/-- A separator belongs to no word, and no word reaches across it. -/
theorem words_append_cons {separator : Char} (separates : isSeparator separator)
    (before after : List Char) :
    words (before ++ separator :: after) = words before ++ words after := by
  have pieces := List.splitOnP_append_cons before after separates
  simp only [words, pieces, List.filter_append]

/-- The empty text has no words. -/
@[simp] theorem words_nil : words [] = [] := by
  simp [words]

/-- A text without separators is its one word, unless it is empty. -/
theorem words_of_plain {text : List Char}
    (plain : ∀ character ∈ text, isSeparator character = false) :
    words text = if text = [] then [] else [text] := by
  have whole := List.splitOnP_eq_singleton plain
  by_cases empty : text = []
  · simp [empty]
  · simp [words, whole, empty]

/-- A text has no separator, or it has a first one and goes on behind it. -/
theorem split_induction {motive : List Char → Prop}
    (plain : ∀ text, (∀ character ∈ text, isSeparator character = false) → motive text)
    (split : ∀ front separator rest, (∀ character ∈ front, isSeparator character = false) →
      isSeparator separator → motive rest → motive (front ++ separator :: rest))
    (text : List Char) : motive text := by
  induction length : text.length using Nat.strongRecOn generalizing text with
  | _ size ih =>
    cases found : text.find? isSeparator with
    | none => exact plain text (by simpa using List.find?_eq_none.mp found)
    | some separator =>
      obtain ⟨separates, front, rest, rfl, before⟩ := List.find?_eq_some_iff_append.mp found
      have shorter : rest.length < size := by
        rw [List.length_append, List.length_cons] at length
        omega
      exact split front separator rest (by simpa using before) separates (ih _ shorter rest rfl)

/-- A word holds no separator, and stands in the text. -/
theorem standsIn_of_mem_words {text word : List Char} (listed : word ∈ words text) :
    (∀ character ∈ word, isSeparator character = false) ∧ StandsIn word text := by
  have whole : ∀ {piece : List Char}, (∀ character ∈ piece, isSeparator character = false) →
      word ∈ words piece → word = piece := by
    intro piece plain inside
    rw [words_of_plain plain] at inside
    split at inside
    · cases inside
    · exact List.mem_singleton.mp inside
  induction text using split_induction with
  | plain text plain =>
    rw [whole plain listed]
    exact ⟨plain, .self text⟩
  | split front separator rest plain separates ih =>
    rw [words_append_cons separates] at listed
    rcases List.mem_append.mp listed with inFront | inRest
    · rw [whole plain inFront]
      exact ⟨plain, .front separates front rest⟩
    · obtain ⟨bare, stands⟩ := ih inRest
      exact ⟨bare, stands.behind separates front⟩

/-- Behind a beginning that is empty or ends in a separator, words are parted from those in it. -/
theorem words_append_of_ends {before : List Char}
    (ends : ∀ last ∈ before.getLast?, isSeparator last) (rest : List Char) :
    words (before ++ rest) = words before ++ words rest := by
  rcases List.eq_nil_or_concat before with rfl | ⟨front, last, rfl⟩
  · rw [List.nil_append, words_nil, List.nil_append]
  · have separates : isSeparator last := ends last (by simp)
    rw [List.concat_eq_append, List.append_assoc, List.singleton_append,
      words_append_cons separates, words_append_cons separates, words_nil, List.append_nil]

/-- In front of an ending that is empty or starts with a separator, words are parted from those in
it. -/
theorem words_append_of_starts {after : List Char}
    (starts : ∀ first ∈ after.head?, isSeparator first) (front : List Char) :
    words (front ++ after) = words front ++ words after := by
  cases after with
  | nil => rw [List.append_nil, words_nil, List.append_nil]
  | cons first later =>
    have separates : isSeparator first := starts first rfl
    have behind := words_append_cons separates [] later
    rw [List.nil_append, words_nil, List.nil_append] at behind
    rw [words_append_cons separates, behind]

/-- The words of a text are what is not empty, holds no separator, and stands in it. -/
theorem mem_words_iff {text word : List Char} : word ∈ words text ↔
    word ≠ [] ∧ (∀ character ∈ word, isSeparator character = false) ∧ StandsIn word text := by
  constructor
  · intro listed
    exact ⟨ne_nil_of_mem_words listed, standsIn_of_mem_words listed⟩
  · rintro ⟨filled, plain, before, after, rfl, ends, starts⟩
    have alone : words word = [word] := (words_of_plain plain).trans (if_neg filled)
    rw [List.append_assoc, words_append_of_ends ends, words_append_of_starts starts, alone]
    exact List.mem_append_right _ List.mem_cons_self

end TreeQuery.Text
