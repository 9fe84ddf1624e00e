import TreeQuery.Text.Basic
import TreeQuery.Text.Piece
/-!
# Runs of characters

What a reader takes off the front of a text is nearly always a run: all characters have one
property, and the run ends because the character behind it does not have it. A run is given back
whole and alone when it is taken from in front of such a character (`takeWhile_append`,
`dropWhile_append`).
-/
namespace TreeQuery.Text

/-- A text all of whose characters have a property. -/
structure Run (property : Char → Bool) where
  /-- The characters. -/
  text : List Char
  /-- Each has the property. -/
  holds : ∀ character ∈ text, property character

/-- A run of one character or more. -/
structure FilledRun (property : Char → Bool) extends Run property where
  /-- There is a first character. -/
  filled : text ≠ []

/-- A text as a run, when it passes the test. -/
def Run.ofText {property : Char → Bool} (text : List Char) (all : text.all property) :
    Run property :=
  ⟨text, List.all_eq_true.mp all⟩

/-- A text as a filled run, when it passes the test. -/
def FilledRun.ofText {property : Char → Bool} (text : List Char) (all : text.all property)
    (filled : text.isEmpty = false) : FilledRun property :=
  ⟨Run.ofText text all, List.isEmpty_eq_false_iff.mp filled⟩

/-- A run of characters of a kind that another kind includes. -/
def Run.imp {property other : Char → Bool} (run : Run property)
    (includes : ∀ character, property character → other character) : Run other :=
  ⟨run.text, fun character inside => includes character (run.holds character inside)⟩

/-- A filled run of characters of a kind that another kind includes. -/
def FilledRun.imp {property other : Char → Bool} (run : FilledRun property)
    (includes : ∀ character, property character → other character) : FilledRun other :=
  ⟨run.toRun.imp includes, run.filled⟩

/-- A text of blanks. -/
abbrev Blanks := Run isBlank

/-- Whether a text is empty or starts with a character without a property. -/
def Stops (property : Char → Bool) (text : List Char) : Prop :=
  ∀ character, text.head? = some character → property character = false

/-- A text stops at its first character. -/
theorem stops_cons {property : Char → Bool} {first : Char} {rest : List Char}
    (plain : property first = false) : Stops property (first :: rest) := by
  intro character same
  cases same
  exact plain

/-- The empty text stops. -/
theorem stops_nil {property : Char → Bool} : Stops property [] := by
  intro character same
  cases same

/-- Nothing is dropped from a text that stops. -/
theorem Stops.dropWhile_eq {property : Char → Bool} {text : List Char}
    (stops : Stops property text) : text.dropWhile property = text := by
  cases text with
  | nil => rfl
  | cons character rest => simp [stops character rfl]

/-- Nothing is taken from a text that stops. -/
theorem Stops.takeWhile_eq {property : Char → Bool} {text : List Char}
    (stops : Stops property text) : text.takeWhile property = [] := by
  cases text with
  | nil => rfl
  | cons character rest => simp [stops character rfl]

/-- A run with characters of another kind behind it stops where each of the two does. -/
theorem Stops.append {property : Char → Bool} {first second : List Char}
    (inside : Stops property first) (behind : Stops property second) :
    Stops property (first ++ second) := by
  cases first with
  | nil => exact behind
  | cons character rest => exact stops_cons (inside character rfl)

/-- A text stops where it stops with more behind it. -/
theorem Stops.of_append {property : Char → Bool} {first second : List Char}
    (stops : Stops property (first ++ second)) : Stops property first := by
  cases first with
  | nil => exact stops_nil
  | cons character rest => exact stops_cons (stops character rfl)

/-- What is left when characters are dropped stops. -/
theorem stops_dropWhile (property : Char → Bool) (text : List Char) :
    Stops property (text.dropWhile property) := by
  intro character first
  have plain := List.head?_dropWhile_not property text
  rw [first] at plain
  exact plain

namespace Run

variable {property : Char → Bool}

/-- A run is taken whole. -/
theorem takeWhile_append (run : Run property) {rest : List Char} (stops : Stops property rest) :
    (run.text ++ rest).takeWhile property = run.text := by
  rw [List.takeWhile_append_of_pos run.holds, stops.takeWhile_eq, List.append_nil]

/-- What stands behind a run is left. -/
theorem dropWhile_append (run : Run property) {rest : List Char} (stops : Stops property rest) :
    (run.text ++ rest).dropWhile property = rest := by
  rw [List.dropWhile_append_of_pos run.holds, stops.dropWhile_eq]

/-- A character of another kind does not stand in a run. -/
theorem not_mem (run : Run property) (character : Char) (plain : property character = false) :
    character ∉ run.text := by
  intro inside
  have holds := run.holds character inside
  rw [plain] at holds
  cases holds

/-- A run stops for a property that excludes its own. -/
theorem stops (run : Run property) {other : Char → Bool}
    (apart : ∀ character, property character → other character = false) :
    Stops other run.text := by
  intro character first
  exact apart character (run.holds character (List.mem_of_head? first))

/-- A run in front of a text that stops for its property is empty. -/
theorem eq_nil_of_stops (run : Run property) {rest : List Char}
    (stops : Stops property (run.text ++ rest)) : run.text = [] := by
  have whole := run.takeWhile_append stops_nil
  rw [List.append_nil, stops.of_append.takeWhile_eq] at whole
  exact whole.symm

end Run

/-- Blanks in front of something else are trimmed. -/
theorem trimStart_append (blanks : Blanks) {rest : List Char} (stops : Stops isBlank rest) :
    trimStart (blanks.text ++ rest) = rest :=
  blanks.dropWhile_append stops

/-- The characters taken from the start of a text, as a run. -/
def Run.atStart (property : Char → Bool) (text : List Char) : Run property where
  text := text.takeWhile property
  holds character taken := List.all_eq_true.mp List.all_takeWhile character taken

/-- A text is what is taken from its start and what is left. -/
theorem Run.atStart_append (property : Char → Bool) (text : List Char) :
    (Run.atStart property text).text ++ text.dropWhile property = text :=
  List.takeWhile_append_dropWhile

/-- A text that starts with a character of a kind is a filled run of them and what is left. -/
theorem FilledRun.exists_dropWhile {property : Char → Bool} {text : List Char}
    (filled : text.takeWhile property ≠ []) : ∃ run : FilledRun property,
      text.takeWhile property = run.text ∧ text = run.text ++ text.dropWhile property :=
  ⟨⟨.atStart property text, filled⟩, rfl, (Run.atStart_append property text).symm⟩

/-- A text is blanks and what is left when its start is trimmed. -/
theorem exists_trimStart (text : List Char) :
    ∃ blanks : Blanks, text = blanks.text ++ trimStart text :=
  ⟨.atStart isBlank text, (Run.atStart_append isBlank text).symm⟩

/-- The characters taken from the end of a text, as a run. -/
def Run.atEnd (property : Char → Bool) (text : List Char) : Run property where
  text := takeEndWhile property text
  holds character taken :=
    List.all_eq_true.mp List.all_takeWhile character (List.mem_reverse.mp taken)

/-- Trimming takes blanks off the end of a text. -/
theorem trimEnd_append_atEnd (text : List Char) :
    trimEnd text ++ (Run.atEnd isBlank text).text = text :=
  dropEndWhile_append_takeEndWhile isBlank text

/-- A trimmed text does not start with a blank. -/
theorem stops_trim (text : List Char) : Stops isBlank (trim text) := by
  have start : Stops isBlank (trimStart text) := stops_dropWhile isBlank text
  rw [← trimEnd_append_atEnd (trimStart text)] at start
  exact start.of_append

/-- A filled run in front of a text gives it a beginning to stop at. -/
theorem FilledRun.stops_append {property other : Char → Bool} (run : FilledRun property)
    (apart : ∀ character, property character → other character = false) (rest : List Char) :
    Stops other (run.text ++ rest) := by
  obtain ⟨first, others, same⟩ := List.exists_cons_of_ne_nil run.filled
  rw [same]
  exact stops_cons (apart first (run.holds first (by simp [same])))

namespace Piece

variable {α : Type}

/-- Characters that start no piece, whatever stands behind them, are kept. -/
theorem cut_append {piece : Piece α} {before : List Char}
    (inert : ∀ character ∈ before, ∀ rest, piece.read (character :: rest) = none)
    (rest : List Char) :
    piece.cut (before ++ rest) = ((piece.cut rest).1, before ++ (piece.cut rest).2) := by
  induction before with
  | nil => rfl
  | cons character others ih =>
    have later := ih fun other inside => inert other (List.mem_cons_of_mem _ inside)
    rw [List.cons_append, cut_cons_of_read_eq_none (inert character List.mem_cons_self _), later]
    rfl

/-- A text put together from parts is cut part by part, when each part is cut apart from those
behind it. -/
theorem cut_flatMap {β : Type} {piece : Piece α} {whole kept : β → List Char}
    {found : β → Option α} (step : ∀ (part : β) (others : List β),
      piece.cut (whole part ++ others.flatMap whole) =
        ((found part).toList ++ (piece.cut (others.flatMap whole)).1,
          kept part ++ (piece.cut (others.flatMap whole)).2)) (parts : List β) :
    piece.cut (parts.flatMap whole) = (parts.filterMap found, parts.flatMap kept) := by
  induction parts with
  | nil => exact cut_nil piece
  | cons part others ih =>
    rw [List.flatMap_cons, List.flatMap_cons, step, ih, List.filterMap_cons]
    cases found part <;> rfl

end Piece

end TreeQuery.Text
