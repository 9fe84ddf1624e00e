import Mathlib.Tactic.ByContra
import TreeQuery.Proofs.Selector.TokenLanguage
/-!
# Clean tokens

A clean token is made of token characters, groups without parentheses and opening brackets inside,
and clauses without closing brackets and opening parentheses inside. Wherever in a clean token
reading starts, it is stuck or stands outside of groups and clauses when the token ends
(`Settled`). Behind a text in which no reading comes to its end (`Barred`), a token is therefore
split off whole, and nothing more (`splitToken?_append`).
-/
namespace TreeQuery

namespace Token

/-- Wherever reading starts in a text, it is stuck or stands outside at the end. -/
def Settled : List Char → Prop
  | [] => True
  | character :: rest =>
    (run .outside (character :: rest) = none ∨
      run .outside (character :: rest) = some .outside) ∧ Settled rest

/-- Wherever reading starts in a text, it is stuck. -/
def Barred : List Char → Prop
  | [] => True
  | character :: rest => run .outside (character :: rest) = none ∧ Barred rest

/-- Reading a settled text from its beginning is stuck or stands outside at the end. -/
theorem Settled.run {text : List Char} (settled : Settled text) :
    run .outside text = none ∨ run .outside text = some .outside := by
  cases text with
  | nil => exact .inr rfl
  | cons character rest => exact settled.1

/-- Settled texts put together are settled. -/
theorem Settled.append {first second : List Char} (before : Settled first)
    (behind : Settled second) : Settled (first ++ second) := by
  induction first with
  | nil => exact behind
  | cons character rest ih =>
    rw [List.cons_append]
    refine ⟨?_, ih before.2⟩
    rw [← List.cons_append, run_append]
    rcases before.1 with stuck | outside
    · rw [stuck]
      exact .inl rfl
    · rw [outside]
      exact behind.run

/-- A barred text is settled. -/
theorem Barred.settled {text : List Char} (barred : Barred text) : Settled text := by
  induction text with
  | nil => trivial
  | cons character rest ih => exact ⟨.inl barred.1, ih barred.2⟩

/-- A settled text is barred by a barred one behind it. -/
theorem Settled.append_barred {first second : List Char} (before : Settled first)
    (behind : Barred second) (some : second ≠ []) : Barred (first ++ second) := by
  have stuck : Token.run .outside second = none := by
    cases second with
    | nil => exact absurd rfl some
    | cons character rest => exact behind.1
  induction first with
  | nil => exact behind
  | cons character rest ih =>
    rw [List.cons_append]
    refine ⟨?_, ih before.2⟩
    rw [← List.cons_append, run_append]
    rcases before.1 with none | outside
    · rw [none]
      rfl
    · rw [outside]
      exact stuck

/-- A token behind a barred text is split off whole, and nothing more. -/
theorem splitToken?_append {before token : List Char} (barred : Barred before)
    (holds : isToken token) : splitToken? (before ++ token) = some (before, token) := by
  induction before with
  | nil =>
    obtain ⟨character, rest, rfl⟩ := List.exists_cons_of_ne_nil (ne_nil_of_isToken holds)
    rw [List.nil_append, splitToken?, if_pos holds]
  | cons character rest ih =>
    have longer : ¬isToken (character :: (rest ++ token)) := by
      rw [isToken_iff, ← List.cons_append, run_append, barred.1]
      rintro ⟨_, stuck⟩
      cases stuck
    rw [List.cons_append, splitToken?, if_neg longer, ih barred.2]
    rfl

/-- A part of a clean token. -/
inductive CleanPart : List Char → Prop
  /-- A token character. -/
  | character {character : Char} (plain : isTokenCharacter character) : CleanPart [character]
  /-- A group without parentheses and opening brackets inside. -/
  | group {inner : List Char}
    (plain : ∀ character ∈ inner, character ≠ '(' ∧ character ≠ ')' ∧ character ≠ '[') :
    CleanPart ('(' :: (inner ++ [')']))
  /-- A clause without closing brackets and opening parentheses inside. -/
  | clause {inner : List Char}
    (plain : ∀ character ∈ inner, character ≠ ']' ∧ character ≠ '(') :
    CleanPart ('[' :: (inner ++ [']']))

/-- What stands in a group is barred by its closing parenthesis. -/
theorem barred_group {inner : List Char}
    (plain : ∀ character ∈ inner, character ≠ '(' ∧ character ≠ ')' ∧ character ≠ '[') :
    Barred (inner ++ [')']) := by
  induction inner with
  | nil => exact ⟨rfl, trivial⟩
  | cons character rest ih =>
    obtain ⟨noGroup, _, noClause⟩ := plain character List.mem_cons_self
    have later := ih fun other inside => plain other (List.mem_cons_of_mem _ inside)
    have stuck : run .outside (rest ++ [')']) = none := by
      cases rest with
      | nil => rfl
      | cons _ _ => exact later.1
    rw [List.cons_append]
    refine ⟨?_, later⟩
    rw [run_cons]
    by_cases token : isTokenCharacter character
    · have stays : Place.outside.after character = some .outside := by
        simp [Place.after, noGroup, noClause, token]
      rw [stays]
      exact stuck
    · have ends : Place.outside.after character = none := by
        simp [Place.after, noGroup, noClause, token]
      rw [ends]
      rfl

/-- What stands in a clause is settled: from an opening bracket reading comes to the end of the
clause, and from anywhere else it is stuck there. -/
theorem settled_clause {inner : List Char}
    (plain : ∀ character ∈ inner, character ≠ ']' ∧ character ≠ '(') :
    Settled (inner ++ [']']) := by
  induction inner with
  | nil => exact ⟨.inl rfl, trivial⟩
  | cons character rest ih =>
    obtain ⟨_, noGroup⟩ := plain character List.mem_cons_self
    have others := fun other inside => plain other (List.mem_cons_of_mem character inside)
    have later := ih others
    rw [List.cons_append]
    refine ⟨?_, later⟩
    rw [run_cons]
    by_cases opening : character = '['
    · subst opening
      exact .inr (run_clause fun other inside => (others other inside).1)
    · by_cases token : isTokenCharacter character
      · have stays : Place.outside.after character = some .outside := by
          simp [Place.after, noGroup, opening, token]
        rw [stays]
        exact later.run
      · have ends : Place.outside.after character = none := by
          simp [Place.after, noGroup, opening, token]
        rw [ends]
        exact .inl rfl

/-- A clean part is a part of a token. -/
theorem CleanPart.part {text : List Char} (clean : CleanPart text) : Part text := by
  cases clean with
  | character plain => exact .character plain
  | group plain =>
    exact .group fun other inside => ⟨(plain other inside).1, (plain other inside).2.1⟩
  | clause plain => exact .clause fun other inside => (plain other inside).1

/-- A clean part is settled. -/
theorem CleanPart.settled {part : List Char} (clean : CleanPart part) : Settled part := by
  have outside := clean.part.run
  cases clean with
  | character plain => exact ⟨.inr outside, trivial⟩
  | group plain => exact ⟨.inr outside, (barred_group plain).settled⟩
  | clause plain => exact ⟨.inr outside, settled_clause plain⟩

end Token

/-- A token made of clean parts. -/
structure CleanToken where
  /-- The token as written. -/
  text : List Char
  /-- It is one clean part or more. -/
  clean : ∃ parts : List (List Char), parts ≠ [] ∧ (∀ part ∈ parts, Token.CleanPart part) ∧
    text = parts.flatten

namespace CleanToken

open Token

/-- A clean token is in the language of tokens. -/
theorem language (token : CleanToken) : Language token.text := by
  obtain ⟨text, parts, some, clean, rfl⟩ := token
  exact ⟨parts, some, fun part inside => (clean part inside).part, rfl⟩

/-- A clean token is settled. -/
theorem settled (token : CleanToken) : Settled token.text := by
  obtain ⟨text, parts, _, clean, rfl⟩ := token
  induction parts with
  | nil => trivial
  | cons part others ih =>
    by_cases last : others = []
    · subst last
      simpa using (clean part List.mem_cons_self).settled
    · exact (clean part List.mem_cons_self).settled.append
        (ih last fun other inside => clean other (List.mem_cons_of_mem _ inside))

end CleanToken

end TreeQuery
