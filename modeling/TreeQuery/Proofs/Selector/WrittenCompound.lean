import TreeQuery.Proofs.Selector.AttributeClauses
import TreeQuery.Proofs.Selector.PseudoClasses
/-!
# Reading a compound selector as written

A compound selector is written with a tag, a star or neither, and behind it classes, ids, attribute
clauses and pseudo-classes in any order. Reading it gives back what was written
(`outcome_parse_writtenCompound`). It is read in three rounds, each on what the one before has left:
attribute clauses are cut out, then pseudo-classes, then the names are read. Every part begins with
a character that ends any name before it, so that what is left when a part is cut out is still one
part after another.
-/
namespace TreeQuery

open Compound

/-- The front of a compound selector as written. -/
inductive WrittenHead where
  /-- Nothing. -/
  | absent
  /-- A star. -/
  | any
  /-- A tag, which begins with a letter or digit. -/
  | tag (first : Char) (alphanumeric : first.isAlphanum) (rest : Text.Run isNameCharacter)

namespace WrittenHead

/-- The text of a written front. -/
def text : WrittenHead → List Char
  | absent => []
  | any => ['*']
  | tag first _ rest => first :: rest.text

/-- What a written front asks of a tag. -/
def test : WrittenHead → TagTest
  | absent => .any
  | any => .any
  | tag first _ rest => .named (String.ofList (first :: rest.text))

end WrittenHead

/-- A part of a compound selector as written. -/
inductive WrittenPart where
  /-- A class. -/
  | className (name : Text.FilledRun isNameCharacter)
  /-- An id. -/
  | id (name : Text.FilledRun isNameCharacter)
  /-- An attribute clause. -/
  | clause (value : WrittenClause)
  /-- A pseudo-class. -/
  | pseudo (value : WrittenPseudo)

namespace WrittenPart

/-- The text of a written part. -/
def text : WrittenPart → List Char
  | className name => '.' :: name.text
  | id name => '#' :: name.text
  | clause value => value.text
  | pseudo value => value.text

/-- The attribute test that a part writes. -/
def test? : WrittenPart → Option AttributeTest
  | clause value => some value.test
  | _ => none

/-- The pseudo-class that a part writes. -/
def pseudo? : WrittenPart → Option WrittenPseudo
  | pseudo value => some value
  | _ => none

/-- The name that a part writes behind a mark. -/
def nameBehind? (mark : Char) : WrittenPart → Option String
  | className name => if mark = '.' then some (String.ofList name.text) else none
  | id name => if mark = '#' then some (String.ofList name.text) else none
  | _ => none

/-- What is left of a part without attribute clauses. -/
def withoutClause : WrittenPart → List Char
  | clause _ => []
  | part => part.text

/-- What is left of a part without attribute clauses and pseudo-classes. -/
def withoutPredicate : WrittenPart → List Char
  | clause _ => []
  | pseudo _ => []
  | part => part.text

end WrittenPart

/-- A compound selector as written. -/
structure WrittenCompound where
  /-- The front. -/
  head : WrittenHead
  /-- The parts behind it, in any order. -/
  parts : List WrittenPart

namespace WrittenCompound

/-- The text of a written compound selector. -/
def text (written : WrittenCompound) : List Char :=
  written.head.text ++ written.parts.flatMap WrittenPart.text

/-- The attribute tests, in the order written. -/
def tests (written : WrittenCompound) : List AttributeTest :=
  written.parts.filterMap WrittenPart.test?

/-- The pseudo-classes, in the order written. -/
def pseudos (written : WrittenCompound) : List WrittenPseudo :=
  written.parts.filterMap WrittenPart.pseudo?

/-- The ids, in the order written. -/
def ids (written : WrittenCompound) : List String :=
  written.parts.filterMap (WrittenPart.nameBehind? '#')

/-- The classes, in the order written. -/
def classes (written : WrittenCompound) : List String :=
  written.parts.filterMap (WrittenPart.nameBehind? '.')

end WrittenCompound

/-- A character of a tag, an id or a class stands in the name of an attribute. -/
theorem AttributeClause.isNameCharacter_of_compound {character : Char}
    (name : Compound.isNameCharacter character) : AttributeClause.isNameCharacter character := by
  simp only [Compound.isNameCharacter, Bool.or_eq_true, beq_iff_eq, or_assoc] at name
  rcases name with alphanumeric | rfl | rfl
  · simp [AttributeClause.isNameCharacter, Text.isWordCharacter_of_isAlphanum alphanumeric]
  all_goals decide

namespace Compound

/-- A token is malformed when a bracket is left without its attribute clauses. -/
theorem outcome_parse_of_bracket {token : List Char} {bracket : Char}
    (left : bracket ∈ withoutAttributes token) (isOne : isBracket bracket) :
    (parse token).outcome = .error (.malformed (String.ofList token)) := by
  have found : (withoutAttributes token).any isBracket :=
    List.any_eq_true.mpr ⟨bracket, left, isOne⟩
  rw [parse]
  simp only [found, ↓reduceIte]
  rfl

/-- Nothing but a bracket starts an attribute clause. -/
theorem read_clause_eq_none {character : Char} (plain : character ≠ '[') (rest : List Char) :
    AttributeClause.piece.read (character :: rest) = none := by
  change AttributeClause.read (character :: rest) = none
  unfold AttributeClause.read
  split
  · rename_i same
    exact absurd (List.cons.inj same).1 plain
  · rfl

/-- Nothing but a colon starts a pseudo-class. -/
theorem read_pseudo_eq_none {character : Char} (plain : character ≠ ':') (rest : List Char) :
    PseudoClass.piece.read (character :: rest) = none := by
  change PseudoClass.read (character :: rest) = none
  unfold PseudoClass.read
  split
  · rename_i same
    exact absurd (List.cons.inj same).1 plain
  · rfl

/-- Nothing but the mark starts a marked name. -/
theorem read_marked_eq_none {mark character : Char} (plain : character ≠ mark)
    (rest : List Char) : (marked mark).read (character :: rest) = none :=
  if_neg plain

/-- A mark in front of a text that stops name characters starts no name. -/
theorem read_marked_eq_none_of_stops {mark : Char} {rest : List Char}
    (stops : Text.Stops isNameCharacter rest) : (marked mark).read (mark :: rest) = none := by
  change (if mark = mark then _ else _) = _
  rw [if_pos rfl, stops.takeWhile_eq]

/-- A name behind its mark is read whole, up to a character that is not part of it. -/
theorem read_marked_append {mark : Char} (name : Text.FilledRun isNameCharacter)
    {rest : List Char} (stops : Text.Stops isNameCharacter rest) :
    (marked mark).read (mark :: (name.text ++ rest)) = some (String.ofList name.text, rest) := by
  change (if mark = mark then _ else _) = _
  rw [if_pos rfl, name.takeWhile_append stops, name.dropWhile_append stops]
  split
  · rename_i nothing
    exact absurd nothing name.filled
  · rfl

/-- A name behind a mark counts among the names behind that mark, and no other. -/
theorem pieces_marked_append {mark other : Char} (plain : isNameCharacter mark = false)
    (name : Text.FilledRun isNameCharacter) {rest : List Char}
    (stops : Text.Stops isNameCharacter rest) :
    (marked mark).pieces (other :: (name.text ++ rest)) =
      (if mark = other then [String.ofList name.text] else []) ++ (marked mark).pieces rest := by
  simp only [Text.Piece.pieces]
  by_cases same : mark = other
  · subst same
    rw [if_pos rfl, Text.Piece.cut_of_read (read_marked_append name stops)]
    rfl
  · have inert : ∀ character ∈ other :: name.text, ∀ rest,
        (marked mark).read (character :: rest) = none := by
      intro character inside
      apply read_marked_eq_none
      rcases List.mem_cons.mp inside with rfl | inside
      · exact fun equal => same equal.symm
      · exact ne_of_isNameCharacter (name.holds character inside) plain
    rw [if_neg same, ← List.cons_append, Text.Piece.cut_append inert]
    rfl

end Compound

namespace WrittenPart

/-- What is left of a part without attribute clauses holds no bracket. -/
theorem isBracket_eq_false_of_mem_withoutClause (part : WrittenPart) :
    ∀ character ∈ part.withoutClause, isBracket character = false := by
  cases part with
  | className name | id name =>
    intro character inside
    rcases List.mem_cons.mp inside with rfl | inside
    · decide
    · exact isBracket_eq_false_of_isNameCharacter (name.holds character inside)
  | clause value =>
    intro character inside
    cases inside
  | pseudo value =>
    intro character inside
    rcases List.mem_cons.mp inside with rfl | inside
    · decide
    rcases List.mem_append.mp inside with inside | inside
    · exact isBracket_eq_false_of_isNameCharacter (value.name.holds character inside)
    · exact value.isBracket_eq_false_of_mem_argumentText character inside

/-- Without attribute clauses, a part is a text that starts a part, or nothing. -/
theorem startsPart_withoutClause (parts : List WrittenPart) :
    ∀ character, (parts.flatMap withoutClause).head? = some character →
      PseudoClass.startsPart character := by
  induction parts with
  | nil =>
    intro character first
    cases first
  | cons part others ih =>
    rw [List.flatMap_cons]
    cases part with
    | clause value => exact ih
    | className name | id name | pseudo value =>
      intro character first
      cases first
      rfl

/-- Without attribute clauses and pseudo-classes, parts begin with no name character. -/
theorem stops_withoutPredicate (parts : List WrittenPart) :
    Text.Stops isNameCharacter (parts.flatMap withoutPredicate) := by
  induction parts with
  | nil => exact Text.stops_nil
  | cons part others ih =>
    rw [List.flatMap_cons]
    cases part with
    | clause value | pseudo value => exact ih
    | className name | id name => exact Text.stops_cons (by decide)

/-- The first round cuts out the attribute clauses of the parts. -/
theorem cut_clauses (parts : List WrittenPart) :
    AttributeClause.piece.cut (parts.flatMap text) =
      (parts.filterMap test?, parts.flatMap withoutClause) := by
  refine Text.Piece.cut_flatMap (fun part others => ?_) parts
  have plain := part.isBracket_eq_false_of_mem_withoutClause
  cases part with
  | clause value => exact Text.Piece.cut_of_read (value.read_append _)
  | className name | id name | pseudo value =>
    refine Text.Piece.cut_append (fun character inside => read_clause_eq_none ?_) _
    rintro rfl
    cases plain '[' inside

/-- The second round cuts out the pseudo-classes of the parts. -/
theorem cut_pseudos (parts : List WrittenPart) :
    PseudoClass.piece.cut (parts.flatMap withoutClause) =
      (parts.filterMap fun part => part.pseudo?.map WrittenPseudo.clause,
        parts.flatMap withoutPredicate) := by
  refine Text.Piece.cut_flatMap (fun part others => ?_) parts
  cases part with
  | clause value => rfl
  | pseudo value =>
    exact Text.Piece.cut_of_read (value.read_append (startsPart_withoutClause others))
  | className name | id name =>
    refine Text.Piece.cut_append (fun character inside => read_pseudo_eq_none ?_) _
    rcases List.mem_cons.mp inside with rfl | inside
    · decide
    · exact ne_of_isNameCharacter (name.holds character inside) (by decide)

/-- The third round finds the names behind a mark. -/
theorem pieces_marked {mark : Char} (plain : isNameCharacter mark = false)
    (parts : List WrittenPart) :
    (marked mark).pieces (parts.flatMap withoutPredicate) = parts.filterMap (nameBehind? mark) := by
  induction parts with
  | nil => rw [Text.Piece.pieces, List.flatMap_nil, Text.Piece.cut_nil, List.filterMap_nil]
  | cons part others ih =>
    have stops := stops_withoutPredicate others
    rw [List.flatMap_cons, List.filterMap_cons]
    cases part with
    | clause value | pseudo value => exact ih
    | className name =>
      refine (pieces_marked_append plain name stops).trans ?_
      rw [ih]
      by_cases same : mark = '.' <;> simp [nameBehind?, same]
    | id name =>
      refine (pieces_marked_append plain name stops).trans ?_
      rw [ih]
      by_cases same : mark = '#' <;> simp [nameBehind?, same]

end WrittenPart

namespace WrittenHead

/-- A written front is made of name characters or a star. -/
theorem of_mem_text (head : WrittenHead) :
    ∀ character ∈ head.text, isNameCharacter character ∨ character = '*' := by
  intro character inside
  cases head with
  | absent => cases inside
  | any => exact .inr (List.mem_singleton.mp inside)
  | tag first alphanumeric rest =>
    rcases List.mem_cons.mp inside with rfl | inside
    · exact .inl (isNameCharacter_of_isAlphanum alphanumeric)
    · exact .inl (rest.holds character inside)

/-- No character of a written front is one that stands neither in a name nor for any tag. -/
theorem ne_of_mem_text (head : WrittenHead) (other : Char)
    (plain : isNameCharacter other = false) (noStar : other ≠ '*') :
    ∀ character ∈ head.text, character ≠ other := by
  intro character inside
  rcases head.of_mem_text character inside with name | rfl
  · exact ne_of_isNameCharacter name plain
  · exact noStar.symm

/-- In front of something that is no part of a name, a written front is read back. -/
theorem tagOf_append (head : WrittenHead) {rest : List Char}
    (stops : Text.Stops isNameCharacter rest) : tagOf (head.text ++ rest) = head.test := by
  cases head with
  | absent =>
    cases rest with
    | nil => rfl
    | cons character others =>
      have other : character.isAlphanum = false := by
        have plain := stops character rfl
        simp only [isNameCharacter, Bool.or_eq_false_iff] at plain
        exact plain.1.1
      simp [text, tagOf, other, test]
  | any => rfl
  | tag first alphanumeric name =>
    have named : ∀ character ∈ first :: name.text, isNameCharacter character :=
      List.forall_mem_cons.mpr ⟨isNameCharacter_of_isAlphanum alphanumeric, name.holds⟩
    have taken := Text.Run.takeWhile_append ⟨first :: name.text, named⟩ stops
    rw [text, List.cons_append, tagOf, if_pos alphanumeric, ← List.cons_append, taken]
    rfl

end WrittenHead

namespace WrittenCompound

/-- The first round on a written compound selector. -/
theorem cut_clauses_text (written : WrittenCompound) :
    AttributeClause.piece.cut written.text =
      (written.tests, written.head.text ++ written.parts.flatMap WrittenPart.withoutClause) := by
  have inert : ∀ character ∈ written.head.text, ∀ rest,
      AttributeClause.piece.read (character :: rest) = none := fun character inside =>
    read_clause_eq_none (written.head.ne_of_mem_text _ (by decide) (by decide) character inside)
  rw [text, Text.Piece.cut_append inert, WrittenPart.cut_clauses]
  rfl

/-- The second round on a written compound selector. -/
theorem cut_pseudos_text (written : WrittenCompound) :
    PseudoClass.piece.cut (withoutAttributes written.text) =
      (written.pseudos.map WrittenPseudo.clause,
        written.head.text ++ written.parts.flatMap WrittenPart.withoutPredicate) := by
  have inert : ∀ character ∈ written.head.text, ∀ rest,
      PseudoClass.piece.read (character :: rest) = none := fun character inside =>
    read_pseudo_eq_none (written.head.ne_of_mem_text _ (by decide) (by decide) character inside)
  rw [withoutAttributes, Text.Piece.without, cut_clauses_text, Text.Piece.cut_append inert,
    WrittenPart.cut_pseudos, pseudos, List.map_filterMap]

/-- The third round on a written compound selector. -/
theorem pieces_marked_text (written : WrittenCompound) {mark : Char}
    (plain : isNameCharacter mark = false) (noStar : mark ≠ '*') :
    (marked mark).pieces (withoutPredicates written.text) =
      written.parts.filterMap (WrittenPart.nameBehind? mark) := by
  have inert : ∀ character ∈ written.head.text, ∀ rest,
      (marked mark).read (character :: rest) = none := fun character inside =>
    read_marked_eq_none (written.head.ne_of_mem_text mark plain noStar character inside)
  rw [withoutPredicates, Text.Piece.without, cut_pseudos_text, Text.Piece.pieces,
    Text.Piece.cut_append inert]
  exact WrittenPart.pieces_marked plain written.parts

/-- No bracket is left after the first round. -/
theorem any_isBracket_withoutAttributes (written : WrittenCompound) :
    (withoutAttributes written.text).any isBracket = false := by
  rw [withoutAttributes, Text.Piece.without, cut_clauses_text, List.any_eq_false]
  intro character inside
  rcases List.mem_append.mp inside with inside | inside
  · have opening := written.head.ne_of_mem_text '[' (by decide) (by decide)
    have closing := written.head.ne_of_mem_text ']' (by decide) (by decide)
    simp [isBracket, opening character inside, closing character inside]
  · obtain ⟨part, _, inside⟩ := List.mem_flatMap.mp inside
    simp [part.isBracket_eq_false_of_mem_withoutClause character inside]

/-- The written compound selector with the pseudo-classes read. -/
def compound (written : WrittenCompound) (pseudos : List PseudoClass) : Compound where
  filter := {
    tag := written.head.test
    id := written.ids.head?
    classes := written.classes.eraseDups }
  predicates := written.tests.map .attributeTest ++ pseudos.map .pseudoClass

/-- Reading a written compound selector fails at the first pseudo-class that cannot be read, or at
a second id, and gives back what was written otherwise. -/
theorem outcome_parse_text (written : WrittenCompound) :
    (Compound.parse written.text).outcome =
      written.pseudos.mapM WrittenPseudo.meaning >>= fun pseudos =>
        if 1 < written.ids.length then .error (.multipleIds (String.ofList written.text))
        else .ok (written.compound pseudos) := by
  have clauses : AttributeClause.piece.pieces written.text = written.tests := by
    rw [Text.Piece.pieces, cut_clauses_text]
  have pseudoClauses : PseudoClass.piece.pieces (withoutAttributes written.text) =
      written.pseudos.map WrittenPseudo.clause := by
    rw [Text.Piece.pieces, cut_pseudos_text]
  have ids : (marked '#').pieces (withoutPredicates written.text) = written.ids :=
    written.pieces_marked_text (by decide) (by decide)
  have classes : (marked '.').pieces (withoutPredicates written.text) = written.classes :=
    written.pieces_marked_text (by decide) (by decide)
  have tag : tagOf (withoutPredicates written.text) = written.head.test := by
    rw [withoutPredicates, Text.Piece.without, cut_pseudos_text]
    exact written.head.tagOf_append (WrittenPart.stops_withoutPredicate written.parts)
  rw [Compound.parse]
  simp only [written.any_isBracket_withoutAttributes, clauses, pseudoClauses, ids, classes, tag,
    Bool.false_eq_true, ↓reduceIte, Diagnosed.outcome_bind, Diagnosed.outcome_mapM, List.mapM_map,
    Function.comp_def, WrittenPseudo.outcome_parse_clause]
  apply bind_congr
  intro pseudos
  by_cases several : 1 < written.ids.length
  · rw [if_pos several, if_pos several]
    rfl
  · rw [if_neg several, if_neg several]
    rfl

end WrittenCompound

/-- A written pseudo-class can be read when its argument is a counting expression or it does not
count. -/
theorem WrittenPseudo.exists_meaning {pseudo : WrittenPseudo}
    (counting : ∀ argument, pseudo.argument = some argument → pseudo.smallName = "nth-child" →
      ∃ nth, Nth.parse argument.text = .ok nth) : ∃ value, pseudo.meaning = .ok value := by
  unfold meaning
  cases written : pseudo.argument with
  | none =>
    dsimp only
    by_cases first : pseudo.smallName = "first-child"
    · rw [if_pos first]
      exact ⟨.firstChild, rfl⟩
    · rw [if_neg first]
      by_cases last : pseudo.smallName = "last-child"
      · rw [if_pos last]
        exact ⟨.lastChild, rfl⟩
      · rw [if_neg last]
        exact ⟨.unknown (String.ofList pseudo.clause), rfl⟩
  | some argument =>
    dsimp only
    by_cases counts : pseudo.smallName = "nth-child"
    · obtain ⟨nth, readable⟩ := counting argument written counts
      rw [if_pos counts, readable]
      exact ⟨.nthChild nth, rfl⟩
    · rw [if_neg counts]
      exact ⟨.unknown (String.ofList pseudo.clause), rfl⟩

/-- Written pseudo-classes that can be read one by one can be read together. -/
theorem WrittenPseudo.exists_mapM_meaning {pseudos : List WrittenPseudo}
    (readable : ∀ pseudo ∈ pseudos, ∃ value, pseudo.meaning = .ok value) :
    ∃ values : List PseudoClass, pseudos.map meaning = values.map .ok ∧
      pseudos.mapM meaning = .ok values := by
  induction pseudos with
  | nil => exact ⟨[], rfl, rfl⟩
  | cons pseudo others ih =>
    obtain ⟨value, read⟩ := readable pseudo List.mem_cons_self
    obtain ⟨values, each, together⟩ :=
      ih fun other inside => readable other (List.mem_cons_of_mem _ inside)
    exists value :: values
    constructor
    · rw [List.map_cons, List.map_cons, read, each]
    · rw [List.mapM_cons, read, together]
      rfl

/-- Reading a compound selector gives back what was written, when at most one id is written and
every argument of the counting pseudo-class can be read. Whatever the order of the parts, the tag is
the one at the front, the id and the classes are those behind a hash and a dot, a class written
twice counting once, and the predicates are the attribute tests and behind them the pseudo-classes,
each in the order written. -/
theorem outcome_parse_writtenCompound (written : WrittenCompound) (single : written.ids.length ≤ 1)
    (counting : ∀ pseudo ∈ written.pseudos, ∀ argument, pseudo.argument = some argument →
      pseudo.smallName = "nth-child" → ∃ nth, Nth.parse argument.text = .ok nth) :
    ∃ pseudos : List PseudoClass, written.pseudos.map WrittenPseudo.meaning = pseudos.map .ok ∧
      (Compound.parse written.text).outcome = .ok (written.compound pseudos) := by
  obtain ⟨pseudos, each, together⟩ := WrittenPseudo.exists_mapM_meaning fun pseudo inside =>
    WrittenPseudo.exists_meaning (counting pseudo inside)
  refine ⟨pseudos, each, ?_⟩
  have notSeveral : ¬1 < written.ids.length := Nat.not_lt.mpr single
  rw [written.outcome_parse_text, together]
  exact if_neg notSeveral

/-- A compound selector with a part of each kind. -/
def WrittenCompound.everyKind : WrittenCompound where
  head := .tag 'l' (by decide) (.ofText "i".toList (by decide))
  parts := [
    .clause {
      before := .ofText [] (by decide)
      name := .ofText "x".toList (by decide) (by decide)
      after := .ofText " ".toList (by decide)
      comparison := some {
        operator := .startsWith
        compares := by decide
        before := .ofText [] (by decide)
        value := .double (.ofText "#].".toList (by decide))
        after := .ofText [] (by decide) } },
    .className (.ofText "a".toList (by decide) (by decide)),
    .pseudo {
      name := .ofText "nth-child".toList (by decide) (by decide)
      argument := some (.ofText "2n+1".toList (by decide)) },
    .id (.ofText "b".toList (by decide) (by decide))]

/-- The parts of one compound selector are read back. -/
theorem outcome_parse_writtenCompound_everyKind :
    String.ofList WrittenCompound.everyKind.text = "li[x ^=\"#].\"].a:nth-child(2n+1)#b" ∧
      ∃ pseudos : List PseudoClass,
        WrittenCompound.everyKind.pseudos.map WrittenPseudo.meaning = pseudos.map .ok ∧
        (Compound.parse WrittenCompound.everyKind.text).outcome =
          .ok (WrittenCompound.everyKind.compound pseudos) := by
  refine ⟨by decide, outcome_parse_writtenCompound _ (by decide) ?_⟩
  intro pseudo inside argument written _
  cases List.mem_singleton.mp inside
  cases written
  exact ⟨.formula (some 2) (some 1), rfl⟩

end TreeQuery
