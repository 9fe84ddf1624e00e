import TreeQuery.Proofs.Selector.WrittenCompound
/-!
# Compound selectors with faults

A compound selector can be at fault in three ways at once: bracket clauses that have no form of an
attribute clause, arguments of the counting pseudo-class that are no counting expressions, and more
than one id. Which fault is reported depends on their kinds and not on where they stand
(`AttemptedCompound.fault?`): a broken clause before anything else, then the first argument that
cannot be read, then the ids. A broken clause is never read together with what stands next to it
(`BrokenClause.read_append_eq_none`), so its brackets are left over whatever the other parts are.
-/
namespace TreeQuery

open AttributeClause Compound

/-- A bracket clause that is no attribute clause. -/
structure BrokenClause where
  /-- What stands between the brackets. -/
  inner : List Char
  /-- It holds neither brackets nor quotes. -/
  plain : ∀ character ∈ inner, isBracket character = false ∧ isQuote character = false
  /-- With its brackets it has no form of an attribute clause: it is not a name alone or with an
  operator and a value, with blanks between the parts. -/
  formless : ∀ form : Form, form.text ≠ '[' :: (inner ++ [']'])

namespace BrokenClause

/-- The text of a broken clause. -/
def text (clause : BrokenClause) : List Char := '[' :: (clause.inner ++ [']'])

/-- Whatever stands behind a broken clause, no attribute clause begins with its bracket. -/
theorem read_append_eq_none (clause : BrokenClause) (rest : List Char) :
    AttributeClause.piece.read (clause.text ++ rest) = none := by
  rw [AttributeClause.read_eq_none_iff]
  intro form behind same
  have held : ∀ character ∈ clause.inner, isInnerCharacter character := by
    intro character inside
    obtain ⟨bracket, quote⟩ := clause.plain character inside
    simp only [isBracket, Bool.or_eq_false_iff] at bracket
    simp [isInnerCharacter, quote, bracket.2]
  have closes : Text.Stops isInnerCharacter (']' :: rest) := Text.stops_cons (by decide)
  have left := Text.Run.dropWhile_append ⟨clause.inner, held⟩ closes
  have taken := Text.Run.takeWhile_append ⟨clause.inner, held⟩ closes
  simp only [text, List.cons_append, List.append_assoc, List.nil_append] at same
  rcases form.innerCharacters with ⟨inner, closed⟩ | ⟨front, quote, value, after, opens, quoted⟩
  · rw [closed, List.cons_append, List.append_assoc, List.singleton_append, List.cons.injEq]
      at same
    rw [same.2, inner.takeWhile_append (Text.stops_cons (by decide))] at taken
    exact clause.formless form (by rw [closed, taken])
  · rw [quoted, List.cons_append, List.append_assoc, List.cons_append, List.cons.injEq] at same
    have plain : isInnerCharacter quote = false := by simp [isInnerCharacter, opens]
    rw [same.2, front.dropWhile_append (Text.stops_cons plain), List.cons.injEq] at left
    rw [left.1] at opens
    exact absurd opens (by decide)

/-- A name with another name behind it is a broken clause. -/
def twoNames : BrokenClause where
  inner := ['x', ' ', 'y']
  plain := by simp [isBracket, isQuote]
  formless form same := by
    have found := form.read_append []
    rw [List.append_nil, same] at found
    cases found

example : twoNames.text = "[x y]".toList := rfl

end BrokenClause

/-- A part of a compound selector as attempted. -/
inductive AttemptedPart where
  /-- A part that is well formed. -/
  | sound (part : WrittenPart)
  /-- A bracket clause that is no attribute clause. -/
  | broken (clause : BrokenClause)

namespace AttemptedPart

/-- The text of an attempted part. -/
def text : AttemptedPart → List Char
  | sound part => part.text
  | broken clause => clause.text

/-- The part, if it is well formed. -/
def sound? : AttemptedPart → Option WrittenPart
  | sound part => some part
  | broken _ => none

/-- Whether a part is a broken clause. -/
def isBroken : AttemptedPart → Bool
  | sound _ => false
  | broken _ => true

/-- The bracket of a broken clause is left when the attribute clauses are cut out. -/
theorem opening_mem_cut {parts : List AttemptedPart} (broken : parts.any isBroken) :
    '[' ∈ (AttributeClause.piece.cut (parts.flatMap text)).2 := by
  induction parts with
  | nil => cases broken
  | cons part others ih =>
    rw [List.flatMap_cons]
    cases part with
    | broken clause =>
      have unread := clause.read_append_eq_none (others.flatMap text)
      rw [text, BrokenClause.text, List.cons_append] at *
      rw [Text.Piece.cut_cons_of_read_eq_none unread]
      exact List.mem_cons_self
    | sound part =>
      have later := ih (by simpa [isBroken] using broken)
      have plain := part.isBracket_eq_false_of_mem_withoutClause
      cases part with
      | clause value =>
        rw [text, WrittenPart.text, Text.Piece.cut_of_read (value.read_append _)]
        exact later
      | className name | id name | pseudo value =>
        rw [text, Text.Piece.cut_append fun character inside => read_clause_eq_none ?_]
        · exact List.mem_append_right _ later
        · rintro rfl
          cases plain '[' inside

end AttemptedPart

/-- The argument of a counting pseudo-class as written, if it is no counting expression. -/
def WrittenPseudo.invalid? (pseudo : WrittenPseudo) : Option String :=
  match pseudo.argument with
  | none => none
  | some argument =>
    if pseudo.smallName = "nth-child" then
      match Nth.parse argument.text with
      | .ok _ => none
      | .error _ => some (String.ofList argument.text)
    else none

/-- A compound selector as attempted: a front, and behind it parts and broken clauses in any
order. -/
structure AttemptedCompound where
  /-- The front. -/
  head : WrittenHead
  /-- The parts behind it, in any order. -/
  parts : List AttemptedPart

namespace AttemptedCompound

/-- The text of an attempted compound selector. -/
def text (attempt : AttemptedCompound) : List Char :=
  attempt.head.text ++ attempt.parts.flatMap AttemptedPart.text

/-- The compound selector without its broken clauses. -/
def sound (attempt : AttemptedCompound) : WrittenCompound where
  head := attempt.head
  parts := attempt.parts.filterMap AttemptedPart.sound?

/-- The fault that is reported, if there is any. -/
def fault? (attempt : AttemptedCompound) : Option SelectorError :=
  if attempt.parts.any AttemptedPart.isBroken then some (.malformed (String.ofList attempt.text))
  else
    match attempt.sound.pseudos.findSome? WrittenPseudo.invalid? with
    | some argument => some (.invalidNth argument)
    | none =>
      if 1 < attempt.sound.ids.length then some (.multipleIds (String.ofList attempt.text))
      else none

/-- Without broken clauses, an attempt is a written compound selector. -/
theorem text_sound {attempt : AttemptedCompound}
    (whole : attempt.parts.any AttemptedPart.isBroken = false) :
    attempt.sound.text = attempt.text := by
  obtain ⟨head, parts⟩ := attempt
  simp only [text, WrittenCompound.text, sound, List.append_cancel_left_eq]
  induction parts with
  | nil => rfl
  | cons part others ih =>
    rw [List.any_cons, Bool.or_eq_false_iff] at whole
    cases part with
    | broken clause => cases whole.1
    | sound part => simp [AttemptedPart.sound?, AttemptedPart.text, ih whole.2]

/-- A compound selector with a broken clause is malformed. -/
theorem outcome_parse_of_broken {attempt : AttemptedCompound}
    (broken : attempt.parts.any AttemptedPart.isBroken) :
    (Compound.parse attempt.text).outcome =
      .error (.malformed (String.ofList attempt.text)) := by
  have inert : ∀ character ∈ attempt.head.text, ∀ rest,
      AttributeClause.piece.read (character :: rest) = none := fun character inside =>
    read_clause_eq_none (attempt.head.ne_of_mem_text _ (by decide) (by decide) character inside)
  have left : '[' ∈ withoutAttributes attempt.text := by
    rw [withoutAttributes, Text.Piece.without, text, Text.Piece.cut_append inert]
    exact List.mem_append_right _ (AttemptedPart.opening_mem_cut broken)
  exact outcome_parse_of_bracket left (by decide)

end AttemptedCompound

/-- What a written pseudo-class with an argument that is no counting expression is refused for. -/
theorem WrittenPseudo.meaning_eq_error_of_invalid {pseudo : WrittenPseudo} {argument : String}
    (invalid : pseudo.invalid? = some argument) :
    pseudo.meaning = .error (.invalidNth argument) := by
  unfold invalid? at invalid
  unfold meaning
  cases written : pseudo.argument with
  | none => simp [written] at invalid
  | some text =>
    simp only [written] at invalid ⊢
    by_cases counts : pseudo.smallName = "nth-child"
    · rw [if_pos counts] at invalid ⊢
      unfold Nth.parse at invalid ⊢
      cases read : Nth.ofCompact? (Nth.compact text.text) with
      | some nth => simp [read] at invalid
      | none =>
        simp only [read, Option.some.injEq] at invalid ⊢
        rw [← invalid]
        rfl
    · rw [if_neg counts] at invalid
      cases invalid

/-- A written pseudo-class whose argument is not at fault can be read. -/
theorem WrittenPseudo.exists_meaning_of_not_invalid {pseudo : WrittenPseudo}
    (sound : pseudo.invalid? = none) : ∃ value, pseudo.meaning = .ok value := by
  refine exists_meaning fun argument written counts => ?_
  simp only [invalid?, written, counts, ↓reduceIte] at sound
  cases read : Nth.parse argument.text with
  | ok nth => exact ⟨nth, rfl⟩
  | error error => simp [read] at sound

/-- Written pseudo-classes are refused for the first argument that is no counting expression. -/
theorem WrittenPseudo.mapM_meaning_eq_error {pseudos : List WrittenPseudo} {argument : String}
    (first : pseudos.findSome? invalid? = some argument) :
    pseudos.mapM meaning = .error (.invalidNth argument) := by
  induction pseudos with
  | nil => cases first
  | cons pseudo others ih =>
    rw [List.findSome?_cons] at first
    rw [List.mapM_cons]
    cases fault : pseudo.invalid? with
    | some found =>
      rw [fault] at first
      cases first
      rw [meaning_eq_error_of_invalid fault]
      rfl
    | none =>
      rw [fault] at first
      obtain ⟨value, readable⟩ := exists_meaning_of_not_invalid fault
      rw [readable, ih first]
      rfl

/-- Of all the faults of a compound selector the one to report is reported: a broken clause with
the whole text, or else the first argument from the left that is no counting expression, as
written, or else more than one id with the whole text. Without a fault everything that was written
is read back. -/
theorem outcome_parse_attempted (attempt : AttemptedCompound) :
    match attempt.fault? with
    | some error => (Compound.parse attempt.text).outcome = .error error
    | none => ∃ pseudos : List PseudoClass,
        attempt.sound.pseudos.map WrittenPseudo.meaning = pseudos.map .ok ∧
        (Compound.parse attempt.text).outcome = .ok (attempt.sound.compound pseudos) := by
  unfold AttemptedCompound.fault?
  by_cases broken : attempt.parts.any AttemptedPart.isBroken
  · rw [if_pos broken]
    exact AttemptedCompound.outcome_parse_of_broken broken
  rw [if_neg broken]
  have same := AttemptedCompound.text_sound (Bool.eq_false_iff.mpr broken)
  have read := attempt.sound.outcome_parse_text
  rw [same] at read
  cases first : attempt.sound.pseudos.findSome? WrittenPseudo.invalid? with
  | some argument =>
    rw [WrittenPseudo.mapM_meaning_eq_error first] at read
    exact read
  | none =>
    obtain ⟨pseudos, each, together⟩ := WrittenPseudo.exists_mapM_meaning fun pseudo inside =>
      WrittenPseudo.exists_meaning_of_not_invalid (List.findSome?_eq_none_iff.mp first pseudo inside)
    rw [together] at read
    by_cases several : 1 < attempt.sound.ids.length
    · simp only [if_pos several]
      exact read.trans (if_pos several)
    · simp only [if_neg several]
      exact ⟨pseudos, each, read.trans (if_neg several)⟩

/-- A clause with two names comes before an argument and the ids, wherever it stands. -/
example :
    let pseudo : WrittenPseudo :=
      ⟨.ofText "Nth-Child".toList rfl rfl, some (.ofText ['x'] rfl)⟩
    let id : WrittenPart := .id (.ofText ['a'] rfl rfl)
    (AttemptedCompound.mk .any [.sound id, .sound (.pseudo pseudo), .sound id,
        .broken .twoNames]).fault? = some (.malformed "*#a:Nth-Child(x)#a[x y]") ∧
      (AttemptedCompound.mk .any [.sound id, .sound (.pseudo pseudo), .sound id]).fault? =
        some (.invalidNth "x") :=
  ⟨rfl, rfl⟩

end TreeQuery
