import TreeQuery.Proofs.Selector.Segments
import TreeQuery.Proofs.Selector.Separator
/-!
# How selectors are laid out

A selector is laid out from the left: tokens with separators between them, each token as long as it
can be, so that no longer ending of the text up to its end is in the language of tokens
(`Layout.Greedy`). A cursor takes a selector apart without an error exactly when it is laid out like
that, and hands out the tokens and combinators of the layout (`yields_iff_exists_layout`). Nothing
of a selector is lost, then, but blanks and the symbols of the combinators handed out.
-/
namespace TreeQuery

/-- Tokens with separators between them. -/
inductive Layout where
  /-- A token alone. -/
  | token (only : List Char)
  /-- A separator and a token behind what is laid out before. -/
  | step (left : Layout) (separator : Separator) (last : List Char)

namespace Layout

/-- The text laid out. -/
def text : Layout → List Char
  | token only => only
  | step left separator last => left.text ++ (separator.text ++ last)

/-- What is laid out, from the right. -/
def segments : Layout → List Segment
  | token only => [.token only]
  | step left separator last =>
    .token last :: .combinator separator.combinator :: left.segments

/-- Each token is in the language of tokens, and no longer ending of the text up to its end is. -/
def Greedy : Layout → Prop
  | token only => Token.LongestEnding only only
  | step left separator last =>
    left.Greedy ∧ Token.LongestEnding (left.text ++ (separator.text ++ last)) last

variable {layout : Layout}

/-- A layout ends with a token. -/
theorem Greedy.exists_token (greedy : layout.Greedy) :
    ∃ before token, layout.text = before ++ token ∧ Token.Language token := by
  cases layout with
  | token only => exact ⟨[], only, rfl, greedy.holds⟩
  | step left separator last =>
    exact ⟨left.text ++ separator.text, last, by simp [text], greedy.2.holds⟩

/-- A layout ends with an edge. -/
theorem Greedy.exists_last (greedy : layout.Greedy) :
    ∃ before last, layout.text = before ++ [last] ∧ Token.isEdge last := by
  obtain ⟨before, token, same, holds⟩ := greedy.exists_token
  obtain ⟨inner, last, rfl, edge⟩ := holds.exists_last
  exact ⟨before ++ inner, last, by simp [same], edge⟩

/-- A layout begins with an edge. -/
theorem Greedy.exists_first (greedy : layout.Greedy) :
    ∃ first rest, layout.text = first :: rest ∧ Token.isEdge first := by
  induction layout with
  | token only => exact greedy.holds.exists_first
  | step left separator last ih =>
    obtain ⟨first, rest, same, edge⟩ := ih greedy.1
    exact ⟨first, rest ++ (separator.text ++ last), by simp [text, same], edge⟩

end Layout

namespace Cursor

/-- A cursor that expects a token and can take one leaves the selector up to blanks and the token,
which is as long as it can be. -/
theorem takeToken_of_longestEnding {cursor : Cursor} {before token : List Char}
    (whole : before ++ token = cursor.remaining)
    (longest : Token.LongestEnding cursor.remaining token) : cursor.takeToken =
      (.ok token, { cursor with remaining := Text.trimEnd before, expects := .combinator }) := by
  rw [takeToken, splitToken?_eq_some_iff.mpr ⟨whole, longest⟩]

/-- A token taken is as long as it can be, and blanks alone were left off before it. -/
theorem remaining_of_takeToken {cursor after : Cursor} {token : List Char}
    (taken : cursor.takeToken = (.ok token, after)) :
    Token.LongestEnding cursor.remaining token ∧
      ∃ gap : Text.Blanks, cursor.remaining = after.remaining ++ (gap.text ++ token) := by
  unfold takeToken at taken
  split at taken
  · cases taken
  · rename_i before found split
    cases taken
    obtain ⟨whole, longest⟩ := splitToken?_eq_some_iff.mp split
    refine ⟨longest, .atEnd Text.isBlank before, ?_⟩
    rw [← List.append_assoc, Text.trimEnd_append_atEnd, whole]

/-- A cursor that expects a token hands out a token first, if it hands out no error. -/
theorem exists_token_of_segments {cursor : Cursor} {segments : List Segment}
    (sound : cursor.failed = false) (expects : cursor.expects = .token)
    (handed : cursor.segments = segments.map .ok) :
    ∃ token later after, segments = .token token :: later ∧
      cursor.takeToken = (.ok token, after) ∧ after.segments = later.map .ok := by
  cases taken : cursor.takeToken with
  | mk result after =>
    cases result with
    | error error =>
      rw [segments_of_takeToken_error sound expects taken] at handed
      obtain ⟨_, _, _, fault, _⟩ := List.map_eq_cons_iff.mp handed.symm
      cases fault
    | ok token =>
      rw [segments_of_takeToken sound expects taken] at handed
      obtain ⟨_, later, rfl, same, others⟩ := List.map_eq_cons_iff.mp handed.symm
      cases same
      exact ⟨token, later, after, rfl, rfl, others.symm⟩

/-- A cursor that expects a combinator and has something left hands out a combinator first, if it
hands out no error. -/
theorem exists_combinator_of_segments {cursor : Cursor} {segments : List Segment}
    (sound : cursor.failed = false) (expects : cursor.expects = .combinator)
    (more : ¬cursor.exhausted) (handed : cursor.segments = segments.map .ok) :
    ∃ combinator later after, segments = .combinator combinator :: later ∧
      cursor.takeCombinator = (.ok combinator, after) ∧ after.segments = later.map .ok := by
  cases taken : cursor.takeCombinator with
  | mk result after =>
    cases result with
    | error error =>
      rw [segments_of_takeCombinator_error sound expects more taken] at handed
      obtain ⟨_, _, _, fault, _⟩ := List.map_eq_cons_iff.mp handed.symm
      cases fault
    | ok combinator =>
      rw [segments_of_takeCombinator sound expects more taken] at handed
      obtain ⟨_, later, rfl, same, others⟩ := List.map_eq_cons_iff.mp handed.symm
      cases same
      exact ⟨combinator, later, after, rfl, rfl, others.symm⟩

/-- Between what is laid out and the token taken behind it stands a separator that writes the
combinator taken. -/
theorem exists_separator {left : Layout} {gap : Text.Blanks} {token : List Char}
    (greedy : left.Greedy) {ending : Cursor} {next : Cursor} {combinator : Combinator}
    (longest : Token.LongestEnding (ending.remaining ++ (gap.text ++ token)) token)
    (taken : ending.takeCombinator = (.ok combinator, next)) (same : left.text = next.remaining) :
    ∃ separator : Separator, separator.combinator = combinator ∧
      left.text ++ (separator.text ++ token) = ending.remaining ++ (gap.text ++ token) := by
  rcases remaining_of_takeCombinator taken with ⟨rfl, kept⟩ | ⟨visible, -, before, written⟩
  · refine ⟨.blanks gap fun none => ?_, rfl, by rw [same, kept]; rfl⟩
    obtain ⟨before, last, ends, holds⟩ := greedy.exists_token
    rw [none, List.nil_append, ← kept, ← same, ends, List.append_assoc] at longest
    have longer := longest.longest (last ++ token) (List.suffix_append _ _)
      (holds.append longest.holds)
    obtain ⟨first, rest, rfl, _⟩ := holds.exists_first
    rw [List.length_append, List.length_cons] at longer
    omega
  · refine ⟨.symbol combinator visible before gap, rfl, ?_⟩
    rw [same, written, Separator.text]
    simp

/-- What a cursor takes apart without an error is laid out as it is handed out. -/
theorem exists_layout {cursor : Cursor} {segments : List Segment} (sound : cursor.failed = false)
    (expects : cursor.expects = .token) (start : Text.Stops Text.isBlank cursor.remaining)
    (handed : cursor.segments = segments.map .ok) :
    ∃ layout : Layout, layout.text = cursor.remaining ∧ layout.Greedy ∧
      layout.segments = segments := by
  obtain ⟨token, later, ending, rfl, taken, behind⟩ :=
    exists_token_of_segments sound expects handed
  obtain ⟨longest, gap, whole⟩ := remaining_of_takeToken taken
  have ready : ending.failed = false := by rw [failed_of_takeToken taken, sound]
  have waits := expects_of_takeToken taken
  by_cases exhausted : ending.exhausted
  · have nothing : ending.remaining = [] := by simpa [Cursor.exhausted] using exhausted
    rw [nothing, List.nil_append] at whole
    rw [whole] at start
    rw [gap.eq_nil_of_stops start, List.nil_append] at whole
    rw [segments_of_exhausted waits exhausted] at behind
    obtain rfl := List.map_eq_nil_iff.mp behind.symm
    exact ⟨.token token, whole.symm, whole ▸ longest, rfl⟩
  · obtain ⟨combinator, earlier, next, rfl, related, others⟩ :=
      exists_combinator_of_segments ready waits exhausted behind
    have nextStart : Text.Stops Text.isBlank next.remaining := by
      rw [whole] at start
      rcases remaining_of_takeCombinator related with ⟨-, kept⟩ | ⟨-, -, before, written⟩
      · exact kept ▸ start.of_append
      · rw [written] at start
        exact start.of_append.of_append
    have shorter : next.remaining.length < cursor.remaining.length :=
      Nat.lt_of_le_of_lt (length_le_of_takeCombinator related) (length_lt_of_takeToken taken)
    obtain ⟨left, same, greedy, leftSegments⟩ := exists_layout
      (by rw [failed_of_takeCombinator related, ready]) (expects_of_takeCombinator related)
      nextStart others
    rw [whole] at longest
    obtain ⟨separator, writes, between⟩ := exists_separator greedy longest related same
    refine ⟨.step left separator token, between.trans whole.symm, ⟨greedy, between ▸ longest⟩, ?_⟩
    rw [Layout.segments, writes, leftSegments]
termination_by cursor.remaining.length

/-- A cursor in front of a layout hands out what is laid out. -/
theorem segments_eq_of_greedy {layout : Layout} (greedy : layout.Greedy) {cursor : Cursor}
    (sound : cursor.failed = false) (expects : cursor.expects = .token)
    (remaining : layout.text = cursor.remaining) :
    cursor.segments = layout.segments.map .ok := by
  induction layout generalizing cursor with
  | token only =>
    have whole : [] ++ only = cursor.remaining := remaining
    have taken := takeToken_of_longestEnding whole (remaining ▸ greedy)
    rw [segments_of_takeToken sound expects taken, segments_of_exhausted rfl rfl]
    rfl
  | step left separator token ih =>
    obtain ⟨before, last, ending, edge⟩ := greedy.1.exists_last
    have whole : (left.text ++ separator.text) ++ token = cursor.remaining := by
      rw [List.append_assoc]
      exact remaining
    have taken := takeToken_of_longestEnding whole (remaining ▸ greedy.2)
    obtain ⟨after, taken, rest, waits, still⟩ : ∃ after,
        cursor.takeToken = (.ok token, after) ∧
        after.remaining = Text.trimEnd (left.text ++ separator.text) ∧
        after.expects = .combinator ∧ after.failed = false :=
      ⟨_, taken, rfl, rfl, sound⟩
    have related := separator.takeCombinator edge after (by rw [rest, ending])
    have more : ¬after.exhausted := by
      intro exhausted
      have nothing : after.remaining = [] := by simpa [Cursor.exhausted] using exhausted
      have shorter := length_le_of_takeCombinator related
      simp [nothing] at shorter
    have others : segments { after with remaining := before ++ [last], expects := .token } =
        left.segments.map .ok := ih greedy.1 still rfl ending
    rw [segments_of_takeToken sound expects taken,
      segments_of_takeCombinator still waits more related, others]
    rfl

end Cursor

/-- A selector is taken apart without an error exactly when, without the blanks at its ends, it is
laid out as tokens with separators between them, each token as long as it can be. What is handed out
are these tokens and the combinators that the separators write, from the right. -/
theorem yields_iff_exists_layout {selector : String} {segments : List Segment} :
    (Cursor.ofSelector selector).Yields (segments.map .ok) ↔
      ∃ layout : Layout, layout.text = Text.trim selector.toList ∧ layout.Greedy ∧
        layout.segments = segments := by
  constructor
  · intro yields
    exact Cursor.exists_layout rfl rfl (Text.stops_trim _)
      (Cursor.eq_segments_of_yields yields).symm
  · rintro ⟨layout, whole, greedy, rfl⟩
    have handed : (Cursor.ofSelector selector).segments = layout.segments.map .ok :=
      Cursor.segments_eq_of_greedy greedy rfl rfl whole
    exact handed ▸ Cursor.yields_segments _

end TreeQuery
