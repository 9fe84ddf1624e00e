import Mathlib.Tactic.ByContra
import TreeQuery.Proofs.Selector.TokenLanguage
import TreeQuery.Proofs.Text.Run
import TreeQuery.Selector.Cursor
/-!
# Separators

Between two tokens of a selector stands a separator: blanks alone for the descendant combinator, a
symbol with or without blanks around it for the others. Behind a token, a cursor takes the
combinator of the separator that is written there (`Separator.takeCombinator`), and what it takes
is written there: it leaves the selector up to blanks and the symbol of the combinator, or for the
descendant combinator as it is (`Cursor.remaining_of_takeCombinator`).
-/
namespace TreeQuery

/-- A combinator as written between two tokens. -/
inductive Separator where
  /-- The descendant combinator is blanks alone, one at least. -/
  | blanks (gap : Text.Blanks) (some : gap.text ≠ [])
  /-- Any other combinator is its symbol with blanks around it or without. -/
  | symbol (combinator : Combinator) (visible : combinator ≠ .descendant)
    (before after : Text.Blanks)

namespace Separator

/-- The text of a separator. -/
def text : Separator → List Char
  | blanks gap _ => gap.text
  | symbol combinator _ before after => before.text ++ (combinator.symbol.toList ++ after.text)

/-- The combinator that a separator writes. -/
def combinator : Separator → Combinator
  | blanks _ _ => .descendant
  | symbol combinator _ _ _ => combinator

end Separator

/-- An edge is no blank and no symbol. -/
theorem Token.plain_of_isEdge {character : Char} (edge : isEdge character) :
    Text.isBlank character = false ∧ Cursor.isSymbol character = false := by
  simp only [isEdge, isTokenCharacter, Bool.or_eq_true, beq_iff_eq, or_assoc] at edge
  rcases edge with alphanumeric | rfl | rfl | rfl | rfl | rfl | rfl | rfl | rfl | rfl | rfl
  · constructor
    · exact Text.isBlank_eq_false_of_isAlphanum alphanumeric
    · by_contra symbol
      simp only [Cursor.isSymbol, Bool.not_eq_false, Bool.or_eq_true, beq_iff_eq] at symbol
      rcases symbol with (rfl | rfl) | rfl <;> exact absurd alphanumeric (by decide)
  all_goals decide

/-- A blank is no symbol. -/
theorem Cursor.isSymbol_eq_false_of_isBlank {character : Char} (blank : Text.isBlank character) :
    isSymbol character = false := by
  by_contra symbol
  simp only [isSymbol, Bool.not_eq_false, Bool.or_eq_true, beq_iff_eq] at symbol
  rcases symbol with (rfl | rfl) | rfl <;> exact absurd blank (by decide)

namespace Separator

/-- A visible combinator is written with one symbol, from which it is read back. -/
theorem exists_symbol {combinator : Combinator} (visible : combinator ≠ .descendant) :
    ∃ symbol, combinator.symbol.toList = [symbol] ∧ Cursor.isSymbol symbol ∧
      Combinator.ofSymbol? (String.ofList [symbol]) = some combinator := by
  cases combinator with
  | descendant => exact absurd rfl visible
  | child => exact ⟨'>', rfl, rfl, rfl⟩
  | adjacent => exact ⟨'+', rfl, rfl, rfl⟩
  | general => exact ⟨'~', rfl, rfl, rfl⟩

/-- A separator is not empty. -/
theorem text_ne_nil (separator : Separator) : separator.text ≠ [] := by
  cases separator with
  | blanks gap some => exact some
  | symbol combinator visible before after =>
    obtain ⟨symbol, written, _⟩ := exists_symbol visible
    simp [text, written]

/-- Behind a text that ends with an edge, a cursor takes the combinator that is written there and
leaves the text. -/
theorem takeCombinator (separator : Separator) {left : List Char} {last : Char}
    (edge : Token.isEdge last) (cursor : Cursor)
    (remaining : cursor.remaining = Text.trimEnd (left ++ [last] ++ separator.text)) :
    cursor.takeCombinator = (.ok separator.combinator,
      { cursor with remaining := left ++ [last], expects := .token }) := by
  obtain ⟨notBlank, notSymbol⟩ := Token.plain_of_isEdge edge
  have trimmed : Text.trimEnd (left ++ [last]) = left ++ [last] :=
    Text.dropEndWhile_append_singleton notBlank left
  have unmarked : Text.dropEndWhile Cursor.isSymbol (left ++ [last]) = left ++ [last] :=
    Text.dropEndWhile_append_singleton notSymbol left
  cases separator with
  | blanks gap _ =>
    have whole : cursor.remaining = left ++ [last] := by
      rw [remaining, text, Text.trimEnd, Text.dropEndWhile_append gap.holds]
      exact trimmed
    rw [Cursor.takeCombinator, whole, Text.takeEndWhile_eq_nil_of_dropEndWhile unmarked]
    simp [combinator, ← whole]
  | symbol combinator visible before after =>
    obtain ⟨symbol, written, visibly, readBack⟩ := exists_symbol visible
    have blankSymbol : Text.isBlank symbol = false := by
      by_contra blank
      rw [Bool.not_eq_false] at blank
      rw [Cursor.isSymbol_eq_false_of_isBlank blank] at visibly
      cases visibly
    have gap : Text.dropEndWhile Cursor.isSymbol (left ++ [last] ++ before.text) =
        left ++ [last] ++ before.text := by
      rcases List.eq_nil_or_concat before.text with none | ⟨blanks, blank, some⟩
      · rw [none, List.append_nil, unmarked]
      · rw [some, List.concat_eq_append, ← List.append_assoc]
        exact Text.dropEndWhile_append_singleton
          (Cursor.isSymbol_eq_false_of_isBlank (before.holds blank (by simp [some]))) _
    have whole : cursor.remaining = left ++ [last] ++ before.text ++ [symbol] := by
      rw [remaining, text, written, Text.trimEnd, ← List.append_assoc, ← List.append_assoc,
        Text.dropEndWhile_append after.holds]
      exact Text.dropEndWhile_append_singleton blankSymbol _
    have only : ∀ character ∈ [symbol], Cursor.isSymbol character := by simpa using visibly
    have rest : Text.trimEnd (left ++ [last] ++ before.text) = left ++ [last] := by
      rw [Text.trimEnd, Text.dropEndWhile_append before.holds]
      exact trimmed
    rw [Cursor.takeCombinator, whole, Text.takeEndWhile_append gap only,
      Text.dropEndWhile_append only, gap, rest]
    simp only [readBack]
    simp [Separator.combinator]

end Separator

/-- A combinator taken is the descendant combinator, and nothing was taken off, or another one
that stood with its symbol behind something else. -/
theorem Cursor.remaining_of_takeCombinator {cursor after : Cursor} {combinator : Combinator}
    (taken : cursor.takeCombinator = (.ok combinator, after)) :
    (combinator = .descendant ∧ after.remaining = cursor.remaining) ∨
      combinator ≠ .descendant ∧ after.remaining ≠ [] ∧ ∃ gap : Text.Blanks,
        cursor.remaining = after.remaining ++ (gap.text ++ combinator.symbol.toList) := by
  have whole := Text.dropEndWhile_append_takeEndWhile isSymbol cursor.remaining
  have marks := (Text.Run.atEnd isSymbol cursor.remaining).holds
  simp only [Text.Run.atEnd] at marks
  unfold takeCombinator at taken
  split at taken
  · cases taken
    exact .inl ⟨rfl, rfl⟩
  · generalize Text.takeEndWhile isSymbol cursor.remaining = symbols at taken whole marks
    simp only at taken
    split at taken
    · cases taken
    · rename_i found read
      split at taken
      · cases taken
      · rename_i some
        cases taken
        have written : symbols = combinator.symbol.toList := by
          rw [← Combinator.ofSymbol?_eq_some_iff.mp read, String.toList_ofList]
        refine .inr ⟨?_, by simpa using some,
          .atEnd Text.isBlank (Text.dropEndWhile isSymbol cursor.remaining), ?_⟩
        · rintro rfl
          have mark := marks ' ' (by simp [written, Combinator.symbol])
          cases mark
        · rw [← List.append_assoc, Text.trimEnd_append_atEnd, ← written, whole]

end TreeQuery
