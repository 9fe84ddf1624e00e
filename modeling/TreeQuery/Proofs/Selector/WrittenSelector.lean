import TreeQuery.Proofs.Selector.CleanToken
import TreeQuery.Proofs.Selector.Layout
/-!
# Taking a written selector apart

A selector is written from the left, token by token, with a separator before each token but the
first: blanks alone for the descendant combinator, a symbol with or without blanks around it for
the others. A cursor takes it apart from the right, and hands out exactly the tokens and
combinators that were written (`yields_writtenSelector`).

A token taken is the longest ending that is one. It does not reach into the separator before it,
where no character can be read, nor through it into what is written further left, which is
settled.
-/
namespace TreeQuery

/-- A selector as written: clean tokens with separators between them. -/
inductive WrittenSelector where
  /-- A token alone. -/
  | token (only : CleanToken)
  /-- A selector with a separator and a token behind it. -/
  | step (left : WrittenSelector) (separator : Separator) (last : CleanToken)

namespace WrittenSelector

/-- The text of a written selector. -/
def text : WrittenSelector → List Char
  | token only => only.text
  | step left separator last => left.text ++ (separator.text ++ last.text)

/-- What a written selector is made of, from the right. -/
def segments : WrittenSelector → List Segment
  | token only => [.token only.text]
  | step left separator last =>
    .token last.text :: .combinator separator.combinator :: left.segments

end WrittenSelector

/-- Between tokens nothing can be read: blanks and symbols stand only in groups and clauses. -/
theorem Token.barred_of_forall {text : List Char}
    (between : ∀ character ∈ text, Text.isBlank character ∨ Cursor.isSymbol character) :
    Barred text := by
  induction text with
  | nil => trivial
  | cons character rest ih =>
    refine ⟨?_, ih fun other inside => between other (List.mem_cons_of_mem _ inside)⟩
    have edge : ¬isEdge character := by
      intro edge
      have plain := plain_of_isEdge edge
      simpa [plain] using between character List.mem_cons_self
    simp only [isEdge, Bool.or_eq_true, beq_iff_eq, not_or] at edge
    have ends : Place.outside.after character = none := by simp [Place.after, edge]
    rw [run_cons, ends]
    rfl

/-- A separator is blanks and symbols. -/
theorem Separator.barred (separator : Separator) : Token.Barred separator.text := by
  apply Token.barred_of_forall
  cases separator with
  | blanks gap some => exact fun character inside => .inl (gap.holds character inside)
  | symbol combinator visible before after =>
    obtain ⟨symbol, written, visibly, _⟩ := Separator.exists_symbol visible
    intro character inside
    simp only [Separator.text, written, List.mem_append, List.mem_singleton] at inside
    rcases inside with earlier | rfl | later
    · exact .inl (before.holds character earlier)
    · exact .inr visibly
    · exact .inl (after.holds character later)

namespace WrittenSelector

/-- A written selector is settled. -/
theorem settled (written : WrittenSelector) : Token.Settled written.text := by
  induction written with
  | token only => exact only.settled
  | step left separator token ih =>
    exact ih.append (separator.barred.settled.append token.settled)

/-- A written selector as it is laid out. -/
def layout : WrittenSelector → Layout
  | token only => .token only.text
  | step left separator last => .step left.layout separator last.text

/-- A written selector is laid out as its text. -/
theorem text_layout (written : WrittenSelector) : written.layout.text = written.text := by
  induction written with
  | token only => rfl
  | step left separator last ih => rw [layout, Layout.text, ih, text]

/-- Laid out is what a written selector is made of. -/
theorem segments_layout (written : WrittenSelector) :
    written.layout.segments = written.segments := by
  induction written with
  | token only => rfl
  | step left separator last ih => rw [layout, Layout.segments, ih, segments]

/-- The tokens of a written selector are as long as they can be. -/
theorem greedy_layout (written : WrittenSelector) : written.layout.Greedy := by
  induction written with
  | token only =>
    have nothing : Token.Barred [] := trivial
    have split := Token.splitToken?_append nothing (Token.isToken_iff_language.mpr only.language)
    exact (splitToken?_eq_some_iff.mp split).2
  | step left separator last ih =>
    have barred := left.settled.append_barred separator.barred separator.text_ne_nil
    have split := Token.splitToken?_append barred (Token.isToken_iff_language.mpr last.language)
    refine ⟨ih, ?_⟩
    rw [text_layout, ← List.append_assoc]
    exact (splitToken?_eq_some_iff.mp split).2

/-- A written selector ends with an edge. -/
theorem exists_last (written : WrittenSelector) :
    ∃ before last, written.text = before ++ [last] ∧ Token.isEdge last :=
  written.text_layout ▸ written.greedy_layout.exists_last

/-- A written selector begins with an edge. -/
theorem exists_first (written : WrittenSelector) :
    ∃ first rest, written.text = first :: rest ∧ Token.isEdge first :=
  written.text_layout ▸ written.greedy_layout.exists_first

/-- A cursor in front of a written selector hands out what it is made of. -/
theorem segments_eq (written : WrittenSelector) {cursor : Cursor} (sound : cursor.failed = false)
    (expects : cursor.expects = .token) (remaining : cursor.remaining = written.text) :
    cursor.segments = written.segments.map .ok := by
  rw [← written.segments_layout]
  exact Cursor.segments_eq_of_greedy written.greedy_layout sound expects
    (written.text_layout.trans remaining.symm)

end WrittenSelector

/-- Taking a written selector apart gives back the tokens and combinators it was written with, from
the right, and then nothing more. Blanks at its ends do not count. -/
theorem yields_writtenSelector (written : WrittenSelector) (leading trailing : Text.Blanks) :
    (Cursor.ofSelector (String.ofList (leading.text ++ written.text ++ trailing.text))).Yields
      (written.segments.map .ok) := by
  obtain ⟨first, rest, beginning, firstEdge⟩ := written.exists_first
  obtain ⟨before, last, ending, lastEdge⟩ := written.exists_last
  have start : Text.trimStart (leading.text ++ written.text ++ trailing.text) =
      written.text ++ trailing.text := by
    rw [Text.trimStart, List.append_assoc, List.dropWhile_append_of_pos leading.holds, beginning,
      List.cons_append, List.dropWhile_cons_of_neg (by simp [Token.plain_of_isEdge firstEdge])]
  have trimmed : Text.trim (leading.text ++ written.text ++ trailing.text) = written.text := by
    rw [Text.trim, start, Text.trimEnd, Text.dropEndWhile_append trailing.holds, ending]
    exact Text.dropEndWhile_append_singleton (Token.plain_of_isEdge lastEdge).1 before
  have remaining : (Cursor.ofSelector
      (String.ofList (leading.text ++ written.text ++ trailing.text))).remaining =
        written.text := by
    rw [Cursor.ofSelector, String.toList_ofList, trimmed]
  rw [← written.segments_eq rfl rfl remaining]
  exact Cursor.yields_segments _

end TreeQuery
