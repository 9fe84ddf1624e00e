import TreeQuery.Proofs.Text.Run
import TreeQuery.Selector.Compound
/-!
# Pseudo-classes as written

What stands behind the colon of a pseudo-class is a clause (`PseudoClass.Clause`), and any text is a
clause and a text that ends it (`PseudoClass.exists_clause`). A pseudo-class is written with a name
alone or with an argument in parentheses. In a token it is read back whole from in front of anything
that starts another part (`WrittenPseudo.read_append`), whatever stands in its argument, and what it
asks for follows from its name, up to case, and its argument (`outcome_parse_clause`).
-/
namespace TreeQuery

namespace PseudoClass

/-- Whether a character stands in an argument as written. -/
def isArgumentCharacter (character : Char) : Bool :=
  !(character == '(' || character == ')' || Compound.isBracket character)

end PseudoClass

open PseudoClass

/-- A pseudo-class as written. -/
structure WrittenPseudo where
  /-- The name. -/
  name : Text.FilledRun Compound.isNameCharacter
  /-- The argument, where one is written. -/
  argument : Option (Text.Run isArgumentCharacter)

namespace WrittenPseudo

/-- The parentheses with the argument, where one is written. -/
def argumentText (pseudo : WrittenPseudo) : List Char :=
  pseudo.argument.elim [] fun argument => '(' :: (argument.text ++ [')'])

/-- The text of a written pseudo-class without its colon. -/
def clause (pseudo : WrittenPseudo) : List Char := pseudo.name.text ++ pseudo.argumentText

/-- The text of a written pseudo-class. -/
def text (pseudo : WrittenPseudo) : List Char := ':' :: pseudo.clause

/-- The name of a written pseudo-class in small letters. -/
def smallName (pseudo : WrittenPseudo) : String := String.ofList (Text.small pseudo.name.text)

/-- What a written pseudo-class asks for, or why its argument cannot be read. -/
def meaning (pseudo : WrittenPseudo) : Except SelectorError PseudoClass :=
  match pseudo.argument with
  | none =>
    if pseudo.smallName = "first-child" then .ok .firstChild
    else if pseudo.smallName = "last-child" then .ok .lastChild
    else .ok (.unknown (String.ofList pseudo.clause))
  | some argument =>
    if pseudo.smallName = "nth-child" then (Nth.parse argument.text).map .nthChild
    else .ok (.unknown (String.ofList pseudo.clause))

end WrittenPseudo

namespace PseudoClass

/-- A name character starts no part. -/
theorem startsPart_eq_false_of_isNameCharacter {character : Char}
    (name : Compound.isNameCharacter character) : startsPart character = false := by
  apply Bool.eq_false_iff.mpr
  intro starts
  simp only [startsPart, Bool.or_eq_true, beq_iff_eq, or_assoc] at starts
  rcases starts with rfl | rfl | rfl | rfl | rfl <;> cases name

/-- Inside an argument, a clause goes on through the parenthesis that closes it. -/
theorem splitClause_argument {argument : List Char} (unclosed : ')' ∉ argument)
    (rest : List Char) :
    splitClause true (argument ++ ')' :: rest) =
      (argument ++ ')' :: (splitClause false rest).1, (splitClause false rest).2) := by
  induction argument with
  | nil => rfl
  | cons character others ih =>
    have later := ih fun inside => unclosed (List.mem_cons_of_mem _ inside)
    have goesOn : (character != ')') = true := by
      apply bne_iff_ne.mpr
      rintro rfl
      exact unclosed List.mem_cons_self
    rw [List.cons_append, splitClause, goesOn, later]
    rfl

/-- A text that stands behind the colon of a pseudo-class, or nothing: characters that start no
other part, and arguments in parentheses. -/
inductive Clause : List Char → Prop
  /-- Nothing. -/
  | nil : Clause []
  /-- A character that starts no part and opens no argument. -/
  | character {character : Char} {rest : List Char} (plain : startsPart character = false)
    (opens : character ≠ '(') (later : Clause rest) : Clause (character :: rest)
  /-- An argument, which goes on to the first closing parenthesis. -/
  | argument {inner rest : List Char} (plain : ')' ∉ inner) (later : Clause rest) :
    Clause ('(' :: (inner ++ ')' :: rest))

/-- No pseudo-class goes on at the front of a text: it is empty, or starts another part, or opens an
argument that is not closed. -/
def Ends : List Char → Prop
  | [] => True
  | character :: rest => startsPart character ∨ character = '(' ∧ ')' ∉ rest

/-- A name with a clause behind it is a clause. -/
theorem Clause.append_name {name rest : List Char}
    (holds : ∀ character ∈ name, Compound.isNameCharacter character) (later : Clause rest) :
    Clause (name ++ rest) := by
  induction name with
  | nil => exact later
  | cons character others ih =>
    have inName := holds character List.mem_cons_self
    exact .character (startsPart_eq_false_of_isNameCharacter inName)
      (Compound.ne_of_isNameCharacter inName rfl)
      (ih fun other inside => holds other (List.mem_cons_of_mem _ inside))

/-- In front of a text that ends it, a clause is split off whole. -/
theorem Clause.splitClause_append {clause behind : List Char} (holds : Clause clause)
    (ends : Ends behind) : splitClause false (clause ++ behind) = (clause, behind) := by
  induction holds with
  | nil =>
    cases behind with
    | nil => rfl
    | cons character rest =>
      have stops : (startsPart character || (character == '(' && !rest.contains ')')) = true := by
        simpa [Ends] using ends
      rw [List.nil_append, splitClause, if_pos stops]
  | character plain opens _ ih =>
    rw [List.cons_append, splitClause, plain, beq_eq_false_iff_ne.mpr opens, ih]
    rfl
  | @argument inner rest plain _ ih =>
    have closed : (inner ++ ')' :: (rest ++ behind)).contains ')' = true := by simp
    rw [List.cons_append, List.append_assoc, List.cons_append, splitClause, closed]
    simp [startsPart, splitClause_argument plain, ih]

/-- Any text is a clause and a text that ends it. -/
theorem exists_clause (text : List Char) :
    ∃ clause behind, text = clause ++ behind ∧ Clause clause ∧ Ends behind := by
  match text with
  | [] => exact ⟨[], [], rfl, .nil, trivial⟩
  | character :: rest =>
    by_cases starts : startsPart character
    · exact ⟨[], character :: rest, rfl, .nil, .inl starts⟩
    by_cases opens : character = '('
    · by_cases closes : ')' ∈ rest
      · obtain ⟨inner, later, rfl, plain⟩ := List.eq_append_cons_of_mem closes
        obtain ⟨clause, behind, rfl, holds, ends⟩ := exists_clause later
        exact ⟨'(' :: (inner ++ ')' :: clause), behind, by simp [opens],
          .argument plain holds, ends⟩
      · exact ⟨[], character :: rest, rfl, .nil, .inr ⟨opens, closes⟩⟩
    · obtain ⟨clause, behind, rfl, holds, ends⟩ := exists_clause rest
      exact ⟨character :: clause, behind, rfl,
        .character (Bool.eq_false_iff.mpr starts) opens holds, ends⟩
termination_by text.length
decreasing_by all_goals simp_all <;> omega

/-- In front of a text that ends it, a clause with its colon is read whole. -/
theorem Clause.read_append {clause behind : List Char} (holds : Clause clause)
    (filled : clause ≠ []) (ends : Ends behind) :
    piece.read (':' :: (clause ++ behind)) = some (clause, behind) := by
  change PseudoClass.read (':' :: (clause ++ behind)) = some (clause, behind)
  rw [PseudoClass.read, holds.splitClause_append ends]
  split
  · rename_i nothing
    exact absurd (Prod.mk.inj nothing).1 filled
  · rename_i found
    cases found
    rfl

/-- A colon in front of a text that ends a clause starts none. -/
theorem read_eq_none_of_ends {behind : List Char} (ends : Ends behind) :
    piece.read (':' :: behind) = none := by
  change PseudoClass.read (':' :: behind) = none
  have nothing := Clause.nil.splitClause_append ends
  rw [List.nil_append] at nothing
  rw [PseudoClass.read, nothing]

end PseudoClass

namespace WrittenPseudo

/-- What is written behind the colon is a clause. -/
theorem clause_holds (pseudo : WrittenPseudo) : Clause pseudo.clause := by
  obtain ⟨name, argument⟩ := pseudo
  refine Clause.append_name name.holds ?_
  cases argument with
  | none => exact .nil
  | some argument =>
    exact .argument (fun inside => absurd (argument.holds ')' inside) (by decide)) .nil

/-- A written pseudo-class is read back whole from in front of another part. -/
theorem read_append (pseudo : WrittenPseudo) {rest : List Char}
    (starts : ∀ character, rest.head? = some character → startsPart character) :
    PseudoClass.piece.read (pseudo.text ++ rest) = some (pseudo.clause, rest) := by
  have filled : pseudo.clause ≠ [] := fun empty =>
    pseudo.name.filled (List.append_eq_nil_iff.mp empty).1
  have ends : Ends rest := by
    cases rest with
    | nil => trivial
    | cons character rest => exact .inl (starts character rfl)
  exact pseudo.clause_holds.read_append filled ends

/-- No name character is a parenthesis. -/
theorem holds_name (pseudo : WrittenPseudo) :
    ∀ character ∈ pseudo.name.text, (character != '(') = true := fun character inside =>
  bne_iff_ne.mpr (Compound.ne_of_isNameCharacter (pseudo.name.holds character inside) rfl)

/-- An argument begins with a parenthesis. -/
theorem stops_argumentText (pseudo : WrittenPseudo) :
    Text.Stops (· != '(') pseudo.argumentText := by
  obtain ⟨name, argument⟩ := pseudo
  cases argument with
  | none => exact Text.stops_nil
  | some argument => exact Text.stops_cons rfl

/-- An argument holds no bracket. -/
theorem isBracket_eq_false_of_mem_argumentText (pseudo : WrittenPseudo) :
    ∀ character ∈ pseudo.argumentText, Compound.isBracket character = false := by
  obtain ⟨name, argument⟩ := pseudo
  cases argument with
  | none =>
    intro character inside
    cases inside
  | some argument =>
    intro character inside
    rcases List.mem_cons.mp inside with rfl | inside
    · decide
    rcases List.mem_append.mp inside with inside | inside
    · have plain := argument.holds character inside
      rw [isArgumentCharacter, Bool.not_eq_true', Bool.or_eq_false_iff] at plain
      exact plain.2
    · cases List.mem_singleton.mp inside
      decide

/-- The name of a clause is the one that is written. -/
theorem nameOf_clause (pseudo : WrittenPseudo) : nameOf pseudo.clause = pseudo.name.text :=
  Text.Run.takeWhile_append ⟨pseudo.name.text, pseudo.holds_name⟩ pseudo.stops_argumentText

/-- The argument of a clause is the one that is written. -/
theorem argumentOf_clause (pseudo : WrittenPseudo) :
    argumentOf pseudo.clause = pseudo.argument.map fun argument => argument.text := by
  have left : pseudo.clause.dropWhile (· != '(') = pseudo.argumentText :=
    Text.Run.dropWhile_append ⟨pseudo.name.text, pseudo.holds_name⟩ pseudo.stops_argumentText
  rw [argumentOf, left]
  obtain ⟨name, argument⟩ := pseudo
  cases argument with
  | none => rfl
  | some argument => simp [argumentText]

/-- A clause is read as what the written pseudo-class asks for. -/
theorem outcome_parse_clause (pseudo : WrittenPseudo) :
    (PseudoClass.parse pseudo.clause).outcome = pseudo.meaning := by
  rw [PseudoClass.parse, meaning, nameOf_clause, argumentOf_clause, ← smallName]
  cases pseudo.argument with
  | none =>
    rw [Option.map_none]
    split
    · rename_i first _
      rw [if_pos first]
      rfl
    · rename_i last _
      rw [if_neg (by rw [last]; decide), if_pos last]
      rfl
    · rename_i missing
      cases missing
    · rename_i notFirst notLast _
      rw [if_neg fun first => notFirst first rfl, if_neg fun last => notLast last rfl]
      rfl
  | some argument =>
    rw [Option.map_some]
    split
    · rename_i missing
      cases missing
    · rename_i missing
      cases missing
    · rename_i counting found
      cases found
      dsimp only
      rw [if_pos counting, Diagnosed.outcome_bind, Diagnosed.outcome_ofExcept]
      cases Nth.parse argument.text <;> rfl
    · rename_i notCounting
      dsimp only
      rw [if_neg fun counting => notCounting _ counting rfl]
      rfl

end WrittenPseudo

end TreeQuery
