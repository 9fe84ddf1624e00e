import TreeQuery.Proofs.Selector.Layout
/-!
# What is left of a selector

A cursor can be asked for a token, for a combinator or for the next segment, and these can follow
one another in any order. Whatever it is asked for, it leaves a text from which what it hands out
was taken off at the end, with the blanks before it, and an error or no answer leaves the text as
it was (`Cursor.Leaves`). From this follow the laws of a whole run: what is left is a beginning of
the selector and does not end with a blank (`Cursor.Remains`). A cursor that has handed out an
error as its next segment hands out no segment any more, and one that is asked for nothing but the
next segment ends within two items for each character and one more
(`Cursor.leaves_after_asked`).
-/
namespace TreeQuery

/-- Whether a text is empty or ends with a character that is no blank. -/
def Text.Trimmed (text : List Char) : Prop :=
  ∀ character, text.getLast? = some character → Text.isBlank character = false

/-- What is left when the end of a text is trimmed is trimmed. -/
theorem Text.trimmed_trimEnd (text : List Char) : Text.Trimmed (Text.trimEnd text) := by
  intro character last
  rw [Text.trimEnd, Text.dropEndWhile, List.getLast?_reverse] at last
  exact Text.stops_dropWhile Text.isBlank text.reverse character last

namespace Cursor

/-- What a cursor can be asked for. -/
inductive Ask where
  /-- The rightmost token. -/
  | token
  /-- The rightmost combinator. -/
  | combinator
  /-- The next segment, whichever it is. -/
  | segment
  deriving DecidableEq, Repr

/-- What a cursor hands out when it is asked for something, and the cursor after that. Nothing is
handed out only when there is no next segment. -/
def ask (cursor : Cursor) : Ask → Option (Except SelectorError Segment) × Cursor
  | .token => (some (cursor.takeToken.1.map .token), cursor.takeToken.2)
  | .combinator => (some (cursor.takeCombinator.1.map .combinator), cursor.takeCombinator.2)
  | .segment => cursor.take

/-- A cursor after it was asked for one thing after the other. -/
def asked (cursor : Cursor) (asks : List Ask) : Cursor :=
  asks.foldl (fun cursor ask => (cursor.ask ask).2) cursor

/-- What an answer leaves of a text. -/
inductive Leaves (text : List Char) :
    Option (Except SelectorError Segment) → List Char → Prop
  /-- Without an answer the text is left as it is. -/
  | nothing : Leaves text none text
  /-- An error leaves the text as it is. -/
  | fault (error : SelectorError) : Leaves text (some (.error error)) text
  /-- A token is taken off with the blanks before it. -/
  | token {rest token : List Char} (filled : token ≠ []) (gap : Text.Blanks)
    (whole : text = rest ++ (gap.text ++ token)) : Leaves text (some (.ok (.token token))) rest
  /-- The descendant combinator leaves the text as it is. -/
  | descendant : Leaves text (some (.ok (.combinator .descendant))) text
  /-- Another combinator is taken off with the blanks before it, and something stands before
  these. -/
  | symbol {rest : List Char} {combinator : Combinator} (visible : combinator ≠ .descendant)
    (filled : rest ≠ []) (gap : Text.Blanks)
    (whole : text = rest ++ (gap.text ++ combinator.symbol.toList)) :
    Leaves text (some (.ok (.combinator combinator))) rest

/-- What is left is a beginning of the text. -/
theorem Leaves.isPrefix {text rest : List Char} {answer : Option (Except SelectorError Segment)}
    (leaves : Leaves text answer rest) : rest <+: text := by
  cases leaves with
  | nothing => exact List.prefix_rfl
  | fault error => exact List.prefix_rfl
  | token filled gap whole => exact whole ▸ List.prefix_append _ _
  | descendant => exact List.prefix_rfl
  | symbol visible filled gap whole => exact whole ▸ List.prefix_append _ _

/-- A token that cannot be taken leaves the text as it is. -/
theorem remaining_of_takeToken_error {cursor after : Cursor} {error : SelectorError}
    (taken : cursor.takeToken = (.error error, after)) : after.remaining = cursor.remaining := by
  unfold takeToken at taken
  split at taken
  · cases taken
    rfl
  · cases taken

/-- A combinator that cannot be taken leaves the text as it is. -/
theorem remaining_of_takeCombinator_error {cursor after : Cursor} {error : SelectorError}
    (taken : cursor.takeCombinator = (.error error, after)) :
    after.remaining = cursor.remaining := by
  unfold takeCombinator at taken
  split at taken
  · cases taken
  · simp only at taken
    split at taken
    · cases taken
      rfl
    · split at taken
      · cases taken
        rfl
      · cases taken

/-- What a cursor leaves when it is asked for a token. -/
theorem leaves_takeToken (cursor : Cursor) :
    Leaves cursor.remaining (some (cursor.takeToken.1.map .token))
      cursor.takeToken.2.remaining := by
  rcases taken : cursor.takeToken with ⟨error | token, after⟩
  · rw [remaining_of_takeToken_error taken]
    exact .fault error
  · obtain ⟨longest, gap, whole⟩ := remaining_of_takeToken taken
    obtain ⟨first, rest, filled, -⟩ := longest.holds.exists_first
    exact .token (filled ▸ List.cons_ne_nil first rest) gap whole

/-- What a cursor leaves when it is asked for a combinator. -/
theorem leaves_takeCombinator (cursor : Cursor) :
    Leaves cursor.remaining (some (cursor.takeCombinator.1.map .combinator))
      cursor.takeCombinator.2.remaining := by
  rcases taken : cursor.takeCombinator with ⟨error | combinator, after⟩
  · rw [remaining_of_takeCombinator_error taken]
    exact .fault error
  · rcases remaining_of_takeCombinator taken with ⟨rfl, kept⟩ | ⟨visible, filled, gap, whole⟩
    · rw [kept]
      exact .descendant
    · exact .symbol visible filled gap whole

/-- What holds when a cursor is asked for a token, when it is asked for a combinator and when it
does not answer holds whatever it is asked for: as the next segment it hands out what it expects, or
nothing. -/
theorem ask_cases {motive : Option (Except SelectorError Segment) → List Char → Prop}
    (cursor : Cursor) (nothing : motive none cursor.remaining)
    (token : motive (some (cursor.takeToken.1.map .token)) cursor.takeToken.2.remaining)
    (combinator : motive (some (cursor.takeCombinator.1.map .combinator))
      cursor.takeCombinator.2.remaining) (request : Ask) :
    motive (cursor.ask request).1 (cursor.ask request).2.remaining := by
  cases request with
  | token => exact token
  | combinator => exact combinator
  | segment =>
    rw [ask]
    unfold take
    split
    · exact nothing
    · split
      · rcases taken : cursor.takeToken with ⟨error | found, after⟩ <;>
          (rw [taken] at token; exact token)
      · split
        · exact nothing
        · rcases taken : cursor.takeCombinator with ⟨error | found, after⟩ <;>
            (rw [taken] at combinator; exact combinator)

/-- What a cursor leaves, whatever it is asked for. -/
theorem leaves_ask (cursor : Cursor) (request : Ask) :
    Leaves cursor.remaining (cursor.ask request).1 (cursor.ask request).2.remaining :=
  cursor.ask_cases .nothing cursor.leaves_takeToken cursor.leaves_takeCombinator request

/-- Whatever a cursor is asked for, what is left is what was left before, or was trimmed. -/
theorem trimmed_ask (cursor : Cursor) (request : Ask) :
    (cursor.ask request).2.remaining = cursor.remaining ∨
      Text.Trimmed (cursor.ask request).2.remaining := by
  refine cursor.ask_cases (motive := fun _ rest => rest = cursor.remaining ∨ Text.Trimmed rest)
    (.inl rfl) ?_ ?_ request
  · unfold takeToken
    split
    · exact .inl rfl
    · exact .inr (Text.trimmed_trimEnd _)
  · unfold takeCombinator
    split
    · exact .inl rfl
    · simp only
      split
      · exact .inl rfl
      · split
        · exact .inl rfl
        · exact .inr (Text.trimmed_trimEnd _)

/-- Whether what is left of a text is a beginning of it that does not end with a blank. -/
structure Remains (cursor : Cursor) (text : List Char) : Prop where
  /-- It is a beginning. -/
  isPrefix : cursor.remaining <+: text
  /-- It does not end with a blank. -/
  trimmed : Text.Trimmed cursor.remaining

/-- Whatever a cursor is asked for, a beginning of the text without a blank at its end is left. -/
theorem Remains.ask {cursor : Cursor} {text : List Char} (remains : cursor.Remains text)
    (request : Ask) : (cursor.ask request).2.Remains text where
  isPrefix := (cursor.leaves_ask request).isPrefix.trans remains.isPrefix
  trimmed := (cursor.trimmed_ask request).elim (fun same => same ▸ remains.trimmed) id

/-- A property of cursors that every answer keeps holds after any number of answers. -/
theorem asked_induction {motive : Cursor → Prop} {cursor : Cursor} (start : motive cursor)
    (step : ∀ cursor request, motive cursor → motive (cursor.ask request).2) (asks : List Ask) :
    motive (cursor.asked asks) := by
  induction asks generalizing cursor with
  | nil => exact start
  | cons request later ih => exact ih (step cursor request start)

/-- At the start the whole selector is left, without the blanks at its ends. -/
theorem remains_ofSelector (selector : String) :
    (ofSelector selector).Remains (Text.trim selector.toList) where
  isPrefix := List.prefix_rfl
  trimmed := Text.trimmed_trimEnd _

/-- A cursor that failed stays so, whatever it is asked for. -/
theorem failed_ask {cursor : Cursor} (failed : cursor.failed) (request : Ask) :
    (cursor.ask request).2.failed := by
  cases request with
  | token =>
    have kept : cursor.takeToken.2.failed = cursor.failed := failed_of_takeToken rfl
    rw [ask, kept, failed]
  | combinator =>
    have kept : cursor.takeCombinator.2.failed = cursor.failed := failed_of_takeCombinator rfl
    rw [ask, kept, failed]
  | segment => rw [ask, take_of_failed failed, failed]

/-- A cursor that has handed out an error as its next segment hands out no segment any more,
whatever else it is asked for before. -/
theorem ask_segment_of_error {cursor : Cursor} {error : SelectorError}
    (lost : (cursor.ask .segment).1 = some (.error error)) (later : List Ask) :
    ((cursor.asked (.segment :: later)).ask .segment).1 = none := by
  have failed : (cursor.ask .segment).2.failed := failed_of_take_error (Prod.ext lost rfl)
  have still : ((cursor.ask .segment).2.asked later).failed :=
    asked_induction (motive := fun cursor => cursor.failed) failed
      (fun _ request failed => failed_ask failed request) later
  exact congrArg Prod.fst (take_of_failed still)

/-- A cursor that does not answer is left as it is. -/
theorem eq_of_take_eq_none {cursor after : Cursor} (taken : cursor.take = (none, after)) :
    after = cursor := by
  unfold take at taken
  split at taken
  · cases taken
    rfl
  · split at taken
    · split at taken <;> cases taken
    · split at taken
      · cases taken
        rfl
      · split at taken <;> cases taken

/-- A cursor that is asked for nothing but the next segment hands out its segments one by one, and
nothing behind them. -/
theorem Yields.ask_replicate {cursor : Cursor} {results : List (Except SelectorError Segment)}
    (yields : cursor.Yields results) (count : Nat) :
    ((cursor.asked (List.replicate count .segment)).ask .segment).1 = results[count]? := by
  induction yields generalizing count with
  | @done cursor after taken =>
    have still : (cursor.asked (List.replicate count .segment)).take = (none, after) := by
      induction count with
      | zero => exact taken
      | succ count ih =>
        have same : (cursor.ask .segment).2 = cursor := by
          rw [ask, taken, eq_of_take_eq_none taken]
        rw [List.replicate_succ, asked, List.foldl_cons, same]
        exact ih
    rw [ask, still, List.getElem?_nil]
  | @more cursor after result results taken _ ih =>
    cases count with
    | zero => rw [List.replicate_zero, asked, List.foldl_nil, ask, taken, List.getElem?_cons_zero]
    | succ count =>
      have next : (cursor.ask .segment).2 = after := by rw [ask, taken]
      rw [List.replicate_succ, asked, List.foldl_cons, next, List.getElem?_cons_succ]
      exact ih count

/-- A cursor hands out no more segments than its budget allows, and one error behind them. -/
theorem length_segments_le (cursor : Cursor) : cursor.segments.length ≤ cursor.budget + 1 := by
  unfold segments
  fun_induction trace cursor with
  | case1 cursor after taken => exact Nat.zero_le _
  | case2 cursor error after taken => exact Nat.succ_le_succ (Nat.zero_le _)
  | case3 cursor segment after taken smaller ih =>
    rw [List.map_cons, List.length_cons]
    omega

/-- Whatever a cursor was asked for before, what is left of the selector is a beginning of it,
without the blanks at its ends, that does not end with a blank; and what is handed out next,
whatever the cursor is asked for, is taken off it with the blanks before it, or nothing is taken
off. Once an error was handed out as the next segment, no segment follows. A cursor that is asked
for nothing but the next segment hands out two items at most for each character of the selector and
one more, and then nothing. -/
theorem leaves_after_asked (selector : String) (asks : List Ask) :
    let cursor := (ofSelector selector).asked asks
    (cursor.remaining <+: Text.trim selector.toList ∧ Text.Trimmed cursor.remaining) ∧
    (∀ request,
      Leaves cursor.remaining (cursor.ask request).1 (cursor.ask request).2.remaining) ∧
    (∀ error, (cursor.ask .segment).1 = some (.error error) →
      ∀ later, ((cursor.asked (.segment :: later)).ask .segment).1 = none) ∧
    ∃ items : List (Except SelectorError Segment),
      items.length ≤ 2 * (Text.trim selector.toList).length + 1 ∧
      ∀ count, (((ofSelector selector).asked (List.replicate count .segment)).ask .segment).1 =
        items[count]? := by
  intro cursor
  have remains : cursor.Remains (Text.trim selector.toList) :=
    asked_induction (motive := fun cursor => cursor.Remains (Text.trim selector.toList))
      (remains_ofSelector selector) (fun _ request remains => remains.ask request) asks
  refine ⟨⟨remains.isPrefix, remains.trimmed⟩, cursor.leaves_ask,
    fun error lost => ask_segment_of_error lost, (ofSelector selector).segments, ?_,
    (yields_segments _).ask_replicate⟩
  exact length_segments_le (ofSelector selector)

/-- Two symbols are no combinator: they are left, with the error as the next segment and behind it
none. A token cannot be taken there either. -/
theorem leaves_after_asked_twoSymbols :
    ((ofSelector "ul >> li").asked [.token, .token]).remaining = "ul >>".toList ∧
    (((ofSelector "ul >> li").asked [.token, .token]).ask .segment).1 =
      some (.error (.malformed "ul >>")) ∧
    ∀ later, ((((ofSelector "ul >> li").asked [.token, .token]).asked (.segment :: later)).ask
      .segment).1 = none := by
  have lost : (((ofSelector "ul >> li").asked [.token, .token]).ask .segment).1 =
      some (.error (.malformed "ul >>")) := by decide
  have left : ((ofSelector "ul >> li").asked [.token, .token]).remaining = "ul >>".toList := by
    decide
  obtain ⟨-, -, ended, -⟩ := leaves_after_asked "ul >> li" [.token, .token]
  exact ⟨left, lost, ended _ lost⟩

end Cursor

end TreeQuery
