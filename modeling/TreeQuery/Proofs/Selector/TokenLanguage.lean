import TreeQuery.Selector.Token
/-!
# The language of tokens

The language of tokens is what can be put together from parts: token characters, groups in
parentheses without parentheses inside, and clauses in brackets without closing brackets inside
(`Token.Language`). Reading a text character by character tells whether it is in the language
(`isToken_iff_language`), so what is split off a text is the longest ending of it that is
(`splitToken?_eq_some_iff`).
-/
namespace TreeQuery

namespace Token

/-- Where reading a text leads from a place, if every character may stand where it does. -/
def run (place : Place) (text : List Char) : Option Place := text.foldlM Place.after place

/-- Reading one text after another. -/
theorem run_append (place : Place) (first second : List Char) :
    run place (first ++ second) = (run place first).bind fun reached => run reached second :=
  List.foldlM_append

/-- Reading one character more. -/
theorem run_cons (place : Place) (character : Char) (rest : List Char) :
    run place (character :: rest) =
      (place.after character).bind fun reached => run reached rest :=
  List.foldlM_cons

/-- A text is a token when reading it from outside leads back there. -/
theorem isToken_iff {text : List Char} :
    isToken text ↔ text ≠ [] ∧ run .outside text = some .outside := by
  simp [isToken, run]

/-- Reading from inside a group ends outside. -/
theorem run_group {inner : List Char}
    (plain : ∀ character ∈ inner, character ≠ '(' ∧ character ≠ ')') :
    run .group (inner ++ [')']) = some .outside := by
  induction inner with
  | nil => rfl
  | cons character rest ih =>
    obtain ⟨notOpening, notClosing⟩ := plain character List.mem_cons_self
    have stays : Place.group.after character = some .group := by
      simp [Place.after, notOpening, notClosing]
    rw [List.cons_append, run_cons, stays]
    exact ih fun other inside => plain other (List.mem_cons_of_mem _ inside)

/-- Reading from inside a clause ends outside. -/
theorem run_clause {inner : List Char} (plain : ∀ character ∈ inner, character ≠ ']') :
    run .clause (inner ++ [']']) = some .outside := by
  induction inner with
  | nil => rfl
  | cons character rest ih =>
    have stays : Place.clause.after character = some .clause := by
      simp [Place.after, plain character List.mem_cons_self]
    rw [List.cons_append, run_cons, stays]
    exact ih fun other inside => plain other (List.mem_cons_of_mem _ inside)

/-- A part of a token. -/
inductive Part : List Char → Prop
  /-- A token character. -/
  | character {character : Char} (plain : isTokenCharacter character) : Part [character]
  /-- A group without parentheses inside. -/
  | group {inner : List Char} (plain : ∀ character ∈ inner, character ≠ '(' ∧ character ≠ ')') :
    Part ('(' :: (inner ++ [')']))
  /-- A clause without closing brackets inside. -/
  | clause {inner : List Char} (plain : ∀ character ∈ inner, character ≠ ']') :
    Part ('[' :: (inner ++ [']']))

/-- A part is read from outside to outside. -/
theorem Part.run {text : List Char} (part : Part text) : run .outside text = some .outside := by
  cases part with
  | @character character plain =>
    have notOpening : character ≠ '(' ∧ character ≠ '[' := by
      constructor <;> (rintro rfl; simp [isTokenCharacter] at plain)
    simp [Token.run, Place.after, notOpening, plain]
  | group plain => exact run_group plain
  | clause plain => exact run_clause plain

/-- A character that can stand at either end of a token. -/
def isEdge (character : Char) : Bool :=
  isTokenCharacter character || character == '(' || character == ')' || character == '[' ||
    character == ']'

/-- A part begins and ends with an edge. -/
theorem Part.edges {text : List Char} (part : Part text) :
    (∃ first rest, text = first :: rest ∧ isEdge first) ∧
      ∃ before last, text = before ++ [last] ∧ isEdge last := by
  cases part with
  | @character character plain =>
    exact ⟨⟨character, [], rfl, by simp [isEdge, plain]⟩,
      ⟨[], character, rfl, by simp [isEdge, plain]⟩⟩
  | @group inner _ => exact ⟨⟨'(', inner ++ [')'], rfl, rfl⟩, ⟨'(' :: inner, ')', rfl, rfl⟩⟩
  | @clause inner _ => exact ⟨⟨'[', inner ++ [']'], rfl, rfl⟩, ⟨'[' :: inner, ']', rfl, rfl⟩⟩

/-- The texts that are one part or more put together. -/
def Language (text : List Char) : Prop :=
  ∃ parts : List (List Char), parts ≠ [] ∧ (∀ part ∈ parts, Part part) ∧ text = parts.flatten

/-- Parts put together are read from outside to outside. -/
theorem run_flatten {parts : List (List Char)} (all : ∀ part ∈ parts, Part part) :
    run .outside parts.flatten = some .outside := by
  induction parts with
  | nil => rfl
  | cons part others ih =>
    rw [List.flatten_cons, run_append, (all part List.mem_cons_self).run]
    exact ih fun other inside => all other (List.mem_cons_of_mem _ inside)

namespace Language

variable {text : List Char}

/-- A text in the language begins with an edge. -/
theorem exists_first (holds : Language text) :
    ∃ first rest, text = first :: rest ∧ isEdge first := by
  obtain ⟨parts, some, all, rfl⟩ := holds
  obtain ⟨part, others, rfl⟩ := List.exists_cons_of_ne_nil some
  obtain ⟨⟨first, rest, rfl, edge⟩, _⟩ := (all part List.mem_cons_self).edges
  exact ⟨first, rest ++ others.flatten, rfl, edge⟩

/-- A text in the language ends with an edge. -/
theorem exists_last (holds : Language text) :
    ∃ before last, text = before ++ [last] ∧ isEdge last := by
  obtain ⟨parts, some, all, rfl⟩ := holds
  obtain ⟨others, part, rfl⟩ := (List.eq_nil_or_concat parts).resolve_left some
  obtain ⟨_, before, last, rfl, edge⟩ := (all part (by simp)).edges
  exact ⟨others.flatten ++ before, last, by simp, edge⟩

/-- Two texts in the language put together are in the language. -/
theorem append (holds : Language text) {behind : List Char} (holdsBehind : Language behind) :
    Language (text ++ behind) := by
  obtain ⟨parts, some, all, rfl⟩ := holds
  obtain ⟨others, _, allOthers, rfl⟩ := holdsBehind
  refine ⟨parts ++ others, List.append_ne_nil_of_left_ne_nil some others, fun part inside => ?_,
    by rw [List.flatten_append]⟩
  exact (List.mem_append.mp inside).elim (all part) (allOthers part)

end Language

/-- What can stand behind a place, so that a text comes to an end outside: the end of the group or
clause that the place is in, and parts behind it. -/
inductive Place.Completed : Place → List Char → Prop
  /-- Outside, parts alone. -/
  | outside {parts : List (List Char)} (all : ∀ part ∈ parts, Part part) :
    Completed outside parts.flatten
  /-- Inside a group, the rest of it. -/
  | group {inner rest : List Char} (plain : ∀ character ∈ inner, character ≠ '(' ∧ character ≠ ')')
    (behind : Completed outside rest) : Completed group (inner ++ ')' :: rest)
  /-- Inside a clause, the rest of it. -/
  | clause {inner rest : List Char} (plain : ∀ character ∈ inner, character ≠ ']')
    (behind : Completed outside rest) : Completed clause (inner ++ ']' :: rest)

/-- A part may be added in front of parts. -/
theorem Place.Completed.cons {part rest : List Char} (first : Part part)
    (behind : Place.outside.Completed rest) : Place.outside.Completed (part ++ rest) := by
  cases behind with
  | outside all =>
    rw [← List.flatten_cons]
    exact .outside (List.forall_mem_cons.mpr ⟨first, all⟩)

/-- Where a character leads from a place. -/
inductive Place.Step : Place → Char → Place → Prop
  /-- A token character stays outside. -/
  | plain {character : Char} (token : isTokenCharacter character) : Step outside character outside
  /-- A group begins. -/
  | openGroup : Step outside '(' group
  /-- A clause begins. -/
  | openClause : Step outside '[' clause
  /-- Any character but a parenthesis stays in a group. -/
  | inGroup {character : Char} (plain : character ≠ '(' ∧ character ≠ ')') :
    Step group character group
  /-- A group ends. -/
  | closeGroup : Step group ')' outside
  /-- Any character but a closing bracket stays in a clause. -/
  | inClause {character : Char} (plain : character ≠ ']') : Step clause character clause
  /-- A clause ends. -/
  | closeClause : Step clause ']' outside

/-- A character that may stand at a place leads on by one of these steps. -/
theorem Place.step_of_after {place reached : Place} {character : Char}
    (leads : place.after character = some reached) : place.Step character reached := by
  cases place with
  | outside =>
    simp only [after] at leads
    split at leads
    · rename_i opening
      cases leads
      exact opening ▸ .openGroup
    · split at leads
      · rename_i opening
        cases leads
        exact opening ▸ .openClause
      · split at leads
        · rename_i token
          cases leads
          exact .plain token
        · cases leads
  | group =>
    simp only [after] at leads
    split at leads
    · rename_i closing
      cases leads
      exact closing ▸ .closeGroup
    · rename_i notClosing
      split at leads
      · cases leads
      · rename_i notOpening
        cases leads
        exact .inGroup ⟨notOpening, notClosing⟩
  | clause =>
    simp only [after] at leads
    split at leads
    · rename_i closing
      cases leads
      exact closing ▸ .closeClause
    · rename_i notClosing
      cases leads
      exact .inClause notClosing

/-- A step in front of what completes the place that it leads to completes the place that it leads
from. -/
theorem Place.Completed.step {place reached : Place} {character : Char} {rest : List Char}
    (behind : reached.Completed rest) (leads : place.Step character reached) :
    place.Completed (character :: rest) := by
  cases leads with
  | plain token => exact behind.cons (.character token)
  | openGroup =>
    cases behind with
    | @group inner rest plain later =>
      have whole := later.cons (.group plain)
      rwa [List.cons_append, List.append_assoc, List.singleton_append] at whole
  | openClause =>
    cases behind with
    | @clause inner rest plain later =>
      have whole := later.cons (.clause plain)
      rwa [List.cons_append, List.append_assoc, List.singleton_append] at whole
  | inGroup plain =>
    cases behind with
    | group others later => exact .group (List.forall_mem_cons.mpr ⟨plain, others⟩) later
  | closeGroup => exact @Completed.group [] rest nofun behind
  | inClause plain =>
    cases behind with
    | clause others later => exact .clause (List.forall_mem_cons.mpr ⟨plain, others⟩) later
  | closeClause => exact @Completed.clause [] rest nofun behind

/-- A text that leads back outside completes the place where its reading starts. -/
theorem completed_of_run {place : Place} {text : List Char}
    (back : run place text = some .outside) : place.Completed text := by
  induction text generalizing place with
  | nil =>
    cases back
    exact @Place.Completed.outside [] nofun
  | cons character rest ih =>
    rw [run_cons] at back
    obtain ⟨reached, leads, onward⟩ := Option.bind_eq_some_iff.mp back
    exact (ih onward).step (Place.step_of_after leads)

/-- The texts read as tokens are those in the language of tokens. -/
theorem isToken_iff_language {text : List Char} : isToken text ↔ Language text := by
  rw [isToken_iff]
  constructor
  · rintro ⟨some, back⟩
    cases completed_of_run back with
    | @outside parts all =>
      refine ⟨parts, fun none => some ?_, all, rfl⟩
      rw [none, List.flatten_nil]
  · intro holds
    obtain ⟨first, rest, whole, _⟩ := holds.exists_first
    obtain ⟨parts, _, all, same⟩ := holds
    exact ⟨whole ▸ List.cons_ne_nil first rest, same ▸ run_flatten all⟩

/-- A text is the longest ending of another that is in the language of tokens. -/
structure LongestEnding (whole token : List Char) : Prop where
  /-- It is an ending. -/
  ending : token <:+ whole
  /-- It is in the language. -/
  holds : Language token
  /-- No ending that is in the language is longer. -/
  longest : ∀ other, other <:+ whole → Language other → other.length ≤ token.length

end Token

/-- A text that ends in a token can be split. -/
theorem exists_of_isToken_ending {text token : List Char} (ending : token <:+ text)
    (holds : isToken token) : ∃ parts, splitToken? text = some parts := by
  induction text with
  | nil => exact absurd (List.suffix_nil.mp ending) (ne_nil_of_isToken holds)
  | cons character rest ih =>
    rw [splitToken?]
    split
    · exact ⟨_, rfl⟩
    · rename_i notWhole
      rcases List.suffix_cons_iff.mp ending with rfl | later
      · exact absurd holds notWhole
      · obtain ⟨parts, found⟩ := ih later
        exact ⟨_, by rw [found]; rfl⟩

/-- No ending of a text that is a token is longer than the one split off. -/
theorem length_le_of_splitToken? {text before token other : List Char}
    (split : splitToken? text = some (before, token)) (ending : other <:+ text)
    (holds : isToken other) : other.length ≤ token.length := by
  induction text generalizing before with
  | nil => cases split
  | cons character rest ih =>
    rw [splitToken?] at split
    split at split
    · cases split
      exact ending.length_le
    · rename_i notWhole
      rcases List.suffix_cons_iff.mp ending with rfl | later
      · exact absurd holds notWhole
      · obtain ⟨parts, found, same⟩ := Option.map_eq_some_iff.mp split
        cases same
        exact ih found later

/-- What is split off a text is its longest ending that is in the language of tokens. -/
theorem splitToken?_eq_some_iff {text before token : List Char} :
    splitToken? text = some (before, token) ↔
      before ++ token = text ∧ Token.LongestEnding text token := by
  constructor
  · intro split
    have whole := append_of_splitToken? split
    refine ⟨whole, ⟨⟨before, whole⟩, Token.isToken_iff_language.mp (isToken_of_splitToken? split),
      fun other ending holds => ?_⟩⟩
    exact length_le_of_splitToken? split ending (Token.isToken_iff_language.mpr holds)
  · rintro ⟨whole, longest⟩
    obtain ⟨⟨earlier, found⟩, split⟩ := exists_of_isToken_ending longest.ending
      (Token.isToken_iff_language.mpr longest.holds)
    have wholeFound := append_of_splitToken? split
    have noLonger := longest.longest found ⟨earlier, wholeFound⟩
      (Token.isToken_iff_language.mp (isToken_of_splitToken? split))
    have noShorter := length_le_of_splitToken? split longest.ending
      (Token.isToken_iff_language.mpr longest.holds)
    obtain ⟨rfl, rfl⟩ := List.append_inj' (whole.trans wholeFound.symm) (by omega)
    exact split

end TreeQuery
