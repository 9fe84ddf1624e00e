import TreeQuery.Json.Value
import TreeQuery.Proofs.Json.Tokens
/-!
# How values are written

The tokens of a value are read back as the value when no more containers are open at once than the
limit allows (`Value.ofTokens?_tokens`). Reading them comes from where a value may begin to where it
has ended, whatever containers are open around it (`Reading.run_tokens`): item by item in an array,
and entry by entry in an object. So every text that writes the tokens of a value, with any escapes
and any blanks, is read as the value (`Value.ofText?_of_written`).
-/
namespace TreeQuery.Json

namespace Value

mutual

/-- How many arrays and objects are open at once where a value is deepest. -/
def depth : Value → Nat
  | null => 0
  | bool _ => 0
  | number _ => 0
  | string _ => 0
  | array items => itemsDepth items + 1
  | object entries => entriesDepth entries + 1

/-- How many are open at once where one of some items is deepest. -/
def itemsDepth : List Value → Nat
  | [] => 0
  | item :: rest => max item.depth (itemsDepth rest)

/-- How many are open at once where the value of one of some entries is deepest. -/
def entriesDepth : List (String × Value) → Nat
  | [] => 0
  | (_, value) :: rest => max value.depth (entriesDepth rest)

end

/-- What holds of null, truth values, numbers and strings, of arrays when it holds of their items,
and of objects when it holds of their values, holds of any value. -/
@[elab_as_elim]
theorem induction {motive : Value → Prop} (null : motive null)
    (bool : ∀ value, motive (bool value)) (number : ∀ value, motive (number value))
    (string : ∀ value, motive (string value))
    (array : ∀ items, (∀ item ∈ items, motive item) → motive (array items))
    (object : ∀ entries, (∀ entry ∈ entries, motive entry.2) → motive (object entries))
    (value : Value) : motive value := by
  refine @Value.rec motive (fun items => ∀ item ∈ items, motive item)
    (fun entries => ∀ entry ∈ entries, motive entry.2) (fun entry => motive entry.2)
    null bool number string array object ?_ ?_ ?_ ?_ (fun _ _ held => held) value
  · exact fun _ listed => absurd listed List.not_mem_nil
  · exact fun _ _ first later => List.forall_mem_cons.mpr ⟨first, later⟩
  · exact fun _ listed => absurd listed List.not_mem_nil
  · exact fun _ _ first later => List.forall_mem_cons.mpr ⟨first, later⟩

end Value

namespace Reading

/-- Reads tokens one after the other. -/
def run (reading : Reading) (tokens : List Token) : Option Reading := tokens.foldlM step reading

/-- Nothing changes without tokens. -/
@[simp] theorem run_nil (reading : Reading) : reading.run [] = some reading := rfl

/-- A token read is followed by those behind it. -/
theorem run_cons {reading next : Reading} {token : Token} (reads : reading.step token = some next)
    (tokens : List Token) : reading.run (token :: tokens) = next.run tokens := by
  rw [run, List.foldlM_cons, reads]
  rfl

/-- Where a value may begin, its first token is read as such. -/
theorem run_begin {frames : List Frame} {awaited : Awaited} {token : Token} {next : Reading}
    (begins : awaited = .value ∨ awaited = .firstItem)
    (reads : beginValue frames token = some next) (tokens : List Token) :
    run ⟨frames, awaited⟩ (token :: tokens) = next.run tokens := by
  refine run_cons ?_ tokens
  rcases begins with rfl | rfl
  · exact reads
  · cases token with
    | closeArray => cases reads
    | _ => exact reads

/-- The tokens of a value lead from where a value may begin to where it has ended. -/
def Reads (value : Value) : Prop :=
  ∀ (frames : List Frame) (awaited : Awaited), awaited = .value ∨ awaited = .firstItem →
    frames.length + value.depth ≤ depthLimit → ∀ rest,
      run ⟨frames, awaited⟩ (value.tokens ++ rest) = run ⟨frames, .after value⟩ rest

/-- The tokens of items, behind those read before, end the array around them. -/
theorem run_itemTokens {item : Value} {later : List Value}
    (reads : ∀ value ∈ item :: later, Reads value) (frames : List Frame) (before : List Value)
    (awaited : Awaited) (begins : awaited = .value ∨ awaited = .firstItem)
    (fits : frames.length + 1 + Value.itemsDepth (item :: later) ≤ depthLimit)
    (rest : List Token) :
    run ⟨.array before :: frames, awaited⟩
        (Value.itemTokens (item :: later) ++ .closeArray :: rest) =
      run ⟨frames, .after (.array (before.reverse ++ item :: later))⟩ rest := by
  induction later generalizing item before awaited with
  | nil =>
    have first := reads item List.mem_cons_self (.array before :: frames) awaited begins
      (by simpa [Value.itemsDepth] using fits)
    have closes : (Reading.mk (.array before :: frames) (.after item)).step .closeArray =
      some ⟨frames, .after (.array (item :: before).reverse)⟩ := rfl
    rw [Value.itemTokens, first, run_cons closes, List.reverse_cons]
  | cons next others ih =>
    rw [Value.itemsDepth] at fits
    have first := reads item List.mem_cons_self (.array before :: frames) awaited begins
      (by rw [List.length_cons]; omega)
    have goes : (Reading.mk (.array before :: frames) (.after item)).step .comma =
      some ⟨.array (item :: before) :: frames, .value⟩ := rfl
    have onward := ih (fun value listed => reads value (List.mem_cons_of_mem item listed))
      (item :: before) .value (.inl rfl) (by omega)
    simp only [Value.itemTokens, List.append_assoc, List.cons_append]
    rw [first, run_cons goes, onward, List.reverse_cons, List.append_assoc]
    rfl

/-- A name where one may come, a colon and the tokens of a value lead to where the value of an entry
has ended. -/
theorem run_entry {value : Value} (reads : Reads value) (name : String) (frames : List Frame)
    (before : List (String × Value)) (awaited : Awaited)
    (named : (Reading.mk frames awaited).step (.string name) = some ⟨frames, .colon before name⟩)
    (fits : frames.length + 1 + value.depth ≤ depthLimit) (rest : List Token) :
    run ⟨frames, awaited⟩ (.string name :: .colon :: (value.tokens ++ rest)) =
      run ⟨.object before name :: frames, .after value⟩ rest := by
  have colon : (Reading.mk frames (.colon before name)).step .colon =
    some ⟨.object before name :: frames, .value⟩ := rfl
  rw [run_cons named, run_cons colon]
  exact reads (.object before name :: frames) .value (.inl rfl) fits rest

/-- The tokens of entries, behind those read before, end the object around them. -/
theorem run_entryTokens {name : String} {value : Value} {later : List (String × Value)}
    (reads : ∀ entry ∈ (name, value) :: later, Reads entry.2) (frames : List Frame)
    (before : List (String × Value)) (awaited : Awaited)
    (named : ∀ name, (Reading.mk frames awaited).step (.string name) =
      some ⟨frames, .colon before name⟩)
    (fits : frames.length + 1 + Value.entriesDepth ((name, value) :: later) ≤ depthLimit)
    (rest : List Token) :
    run ⟨frames, awaited⟩ (Value.entryTokens ((name, value) :: later) ++ .closeObject :: rest) =
      run ⟨frames, .after (.object (before.reverse ++ (name, value) :: later))⟩ rest := by
  have inner : Reads value := reads (name, value) List.mem_cons_self
  induction later generalizing name value before awaited with
  | nil =>
    have first := run_entry inner name frames before awaited (named name)
      (by simpa [Value.entriesDepth] using fits)
    have closes : (Reading.mk (.object before name :: frames) (.after value)).step .closeObject =
      some ⟨frames, .after (.object ((name, value) :: before).reverse)⟩ := rfl
    simp only [Value.entryTokens, List.cons_append]
    rw [first, run_cons closes, List.reverse_cons]
  | cons next others ih =>
    obtain ⟨nextName, nextValue⟩ := next
    rw [Value.entriesDepth] at fits
    have first := run_entry inner name frames before awaited (named name) (by omega)
    have goes : (Reading.mk (.object before name :: frames) (.after value)).step .comma =
      some ⟨frames, .name ((name, value) :: before)⟩ := rfl
    have later : ∀ entry ∈ (nextName, nextValue) :: others, Reads entry.2 :=
      fun entry listed => reads entry (List.mem_cons_of_mem _ listed)
    have onward := ih later ((name, value) :: before) (.name ((name, value) :: before))
      (fun _ => rfl) (by omega) (later (nextName, nextValue) List.mem_cons_self)
    simp only [Value.entryTokens, List.append_assoc, List.cons_append]
    rw [first, run_cons goes, onward, List.reverse_cons, List.append_assoc]
    rfl

/-- The tokens of every value lead from where a value may begin to where it has ended. -/
theorem reads (value : Value) : Reads value := by
  induction value using Value.induction with
  | null => exact fun _ _ begins _ rest => run_begin begins rfl rest
  | bool value => exact fun _ _ begins _ rest => run_begin begins rfl rest
  | number value => exact fun _ _ begins _ rest => run_begin begins rfl rest
  | string value => exact fun _ _ begins _ rest => run_begin begins rfl rest
  | array items inner =>
    intro frames awaited begins fits rest
    rw [Value.depth] at fits
    have opens : beginValue frames .openArray = some ⟨.array [] :: frames, .firstItem⟩ :=
      if_pos (by omega)
    simp only [Value.tokens, List.cons_append, List.append_assoc, List.nil_append]
    rw [run_begin begins opens]
    cases items with
    | nil => exact run_cons rfl rest
    | cons first later =>
      exact run_itemTokens inner frames [] .firstItem (.inr rfl) (by omega) rest
  | object entries inner =>
    intro frames awaited begins fits rest
    rw [Value.depth] at fits
    have opens : beginValue frames .openObject = some ⟨frames, .firstName⟩ := if_pos (by omega)
    simp only [Value.tokens, List.cons_append, List.append_assoc, List.nil_append]
    rw [run_begin begins opens]
    cases entries with
    | nil => exact run_cons rfl rest
    | cons first later =>
      obtain ⟨name, value⟩ := first
      exact run_entryTokens inner frames [] .firstName (fun _ => rfl) (by omega) rest

end Reading

namespace Value

/-- The tokens of a value that is not nested too deep are read as the value. -/
theorem ofTokens?_tokens {value : Value} (fits : value.depth ≤ depthLimit) :
    ofTokens? value.tokens = some value := by
  have whole := Reading.reads value [] .value (.inl rfl) (by simpa using fits) []
  rw [List.append_nil] at whole
  change (Reading.run _ _).bind _ = _
  rw [Reading.start, whole]
  rfl

/-- A text that writes a value that is not nested too deep is read as the value. -/
theorem ofText?_of_spaced {value : Value} {text : String} (fits : value.depth ≤ depthLimit)
    (written : Token.Spaced value.tokens text.toList) : ofText? text = some value := by
  rw [ofText?, Token.ofText?_of_spaced written]
  exact ofTokens?_tokens fits

/-- No number is written in a value. -/
def NumberFree (value : Value) : Prop :=
  ∀ token ∈ value.tokens, ∀ number, token ≠ .number number

namespace NumberFree

/-- A string is no number. -/
theorem string (value : String) : NumberFree (.string value) := by
  simp [NumberFree, tokens]

/-- There is no number in an array when there is none in an item. -/
theorem array {items : List Value} (inner : ∀ item ∈ items, NumberFree item) :
    NumberFree (.array items) := by
  have free : ∀ token ∈ itemTokens items, ∀ number, token ≠ .number number := by
    induction items with
    | nil => simp [itemTokens]
    | cons item later ih =>
      obtain ⟨first, others⟩ := List.forall_mem_cons.mp inner
      cases later with
      | nil => exact first
      | cons next rest =>
        rw [itemTokens, List.forall_mem_append, List.forall_mem_cons]
        · exact ⟨first, by simp, ih others⟩
        · exact nofun
  rw [NumberFree, tokens, List.forall_mem_append, List.forall_mem_cons]
  exact ⟨⟨by simp, free⟩, by simp⟩

/-- There is no number in an object when there is none in a value of it. -/
theorem object {entries : List (String × Value)} (inner : ∀ entry ∈ entries, NumberFree entry.2) :
    NumberFree (.object entries) := by
  have free : ∀ token ∈ entryTokens entries, ∀ number, token ≠ .number number := by
    induction entries with
    | nil => simp [entryTokens]
    | cons entry later ih =>
      obtain ⟨name, value⟩ := entry
      obtain ⟨first, others⟩ := List.forall_mem_cons.mp inner
      have front : ∀ token ∈ Token.string name :: .colon :: value.tokens,
          ∀ number, token ≠ .number number :=
        List.forall_mem_cons.mpr ⟨by simp, List.forall_mem_cons.mpr ⟨by simp, first⟩⟩
      cases later with
      | nil => exact front
      | cons next rest =>
        rw [entryTokens, List.forall_mem_append]
        · exact ⟨front, List.forall_mem_cons.mpr ⟨by simp, ih others⟩⟩
        · exact nofun
  rw [NumberFree, tokens, List.forall_mem_append, List.forall_mem_cons]
  exact ⟨⟨by simp, free⟩, by simp⟩

end NumberFree

end Value

end TreeQuery.Json
