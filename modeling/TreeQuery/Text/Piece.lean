/-!
# Pieces of a text

A piece is a part of a text that a recogniser takes off the front of it, never empty. Three things
are done with a recogniser: all pieces of a text are found from left to right (`pieces`), the text
is kept without them (`without`), and a text is read that is nothing but pieces (`all?`).
-/
namespace TreeQuery.Text

/-- A recogniser of pieces: what it makes of a piece at the front of a text, and the text after
that piece. -/
structure Piece (α : Type) where
  /-- Reads a piece at the front. -/
  read : List Char → Option (α × List Char)
  /-- A piece is never empty. -/
  shorter : ∀ {text value rest}, read text = some (value, rest) → rest.length < text.length

namespace Piece

variable {α : Type}

/-- Every piece from left to right, and the text without them. A character that starts no piece is
kept, and looking goes on behind it. -/
def cut (piece : Piece α) (text : List Char) : List α × List Char :=
  match text with
  | [] => ([], [])
  | character :: rest =>
    match found : piece.read (character :: rest) with
    | some (value, after) =>
      have := piece.shorter found
      let later := piece.cut after
      (value :: later.1, later.2)
    | none =>
      let later := piece.cut rest
      (later.1, character :: later.2)
termination_by text.length
decreasing_by all_goals simp_all

/-- Every piece from left to right. -/
def pieces (piece : Piece α) (text : List Char) : List α := (piece.cut text).1

/-- The text without its pieces. -/
def without (piece : Piece α) (text : List Char) : List Char := (piece.cut text).2

/-- The pieces of a text that is nothing but pieces. -/
def all? (piece : Piece α) (text : List Char) : Option (List α) :=
  match text with
  | [] => some []
  | character :: rest =>
    match found : piece.read (character :: rest) with
    | some (value, after) =>
      have := piece.shorter found
      (piece.all? after).map (value :: ·)
    | none => none
termination_by text.length
decreasing_by simp_all

/-- There is no piece in the empty text. -/
@[simp] theorem cut_nil (piece : Piece α) : piece.cut [] = ([], []) := by
  rw [cut]

/-- A piece at the front is the first one, and looking goes on behind it. -/
theorem cut_of_read {piece : Piece α} {text : List Char} {value : α} {rest : List Char}
    (found : piece.read text = some (value, rest)) :
    piece.cut text = (value :: (piece.cut rest).1, (piece.cut rest).2) := by
  cases text with
  | nil => exact absurd (piece.shorter found) (by simp)
  | cons character tail =>
    rw [cut]
    split
    · rename_i read
      rw [found] at read
      cases read
      rfl
    · rename_i read
      rw [found] at read
      cases read

/-- A character that starts no piece is kept. -/
theorem cut_cons_of_read_eq_none {piece : Piece α} {character : Char} {rest : List Char}
    (missing : piece.read (character :: rest) = none) :
    piece.cut (character :: rest) = ((piece.cut rest).1, character :: (piece.cut rest).2) := by
  rw [cut]
  split
  · rename_i read
    rw [missing] at read
    cases read
  · rfl

/-- The empty text is no pieces. -/
@[simp] theorem all?_nil (piece : Piece α) : piece.all? [] = some [] := by
  rw [all?]

/-- A text that starts with a piece is nothing but pieces when the text behind it is. -/
theorem all?_of_read {piece : Piece α} {text : List Char} {value : α} {rest : List Char}
    (found : piece.read text = some (value, rest)) :
    piece.all? text = (piece.all? rest).map (value :: ·) := by
  cases text with
  | nil => exact absurd (piece.shorter found) (by simp)
  | cons character tail =>
    rw [all?]
    split
    · rename_i read
      rw [found] at read
      cases read
      rfl
    · rename_i read
      rw [found] at read
      cases read

/-- A text that starts with no piece is not nothing but pieces. -/
theorem all?_of_read_eq_none {piece : Piece α} {character : Char} {rest : List Char}
    (missing : piece.read (character :: rest) = none) :
    piece.all? (character :: rest) = none := by
  rw [all?]
  split
  · rename_i read
    rw [missing] at read
    cases read
  · rfl

end Piece

end TreeQuery.Text
