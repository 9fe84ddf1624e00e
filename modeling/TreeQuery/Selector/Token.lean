/-!
# Tokens

A token is the part of a selector between two combinators: a run of token characters, groups in
parentheses and clauses in brackets. A group ends at the first closing parenthesis and holds no
opening one; a clause ends at the first closing bracket and holds anything else. Reading a token
from the left needs to know only where it stands (`Place`), so tokens are the texts on which the
steps of `Place.after` lead from outside to outside.
-/
namespace TreeQuery

namespace Token

/-- Whether a character stands in a token outside groups and clauses. -/
def isTokenCharacter (character : Char) : Bool :=
  character.isAlphanum || character == '_' || character == '-' || character == '#' ||
    character == '.' || character == ':' || character == '*'

/-- Where the next character of a token stands. -/
inductive Place where
  /-- Outside groups and clauses. -/
  | outside
  /-- Inside a group. -/
  | group
  /-- Inside a clause. -/
  | clause
  deriving DecidableEq, Repr

/-- Where a token goes on after a character, if the character may stand there. -/
def Place.after : Place → Char → Option Place
  | outside, character =>
    if character = '(' then some group
    else if character = '[' then some clause
    else if isTokenCharacter character then some outside
    else none
  | group, character =>
    if character = ')' then some outside
    else if character = '(' then none
    else some group
  | clause, character => if character = ']' then some outside else some clause

end Token

/-- Whether a text is one token. -/
def isToken (text : List Char) : Bool :=
  !text.isEmpty && text.foldlM Token.Place.after .outside == some .outside

/-- The longest ending of a text that is a token, and the text before it. -/
def splitToken? : List Char → Option (List Char × List Char)
  | [] => none
  | character :: rest =>
    if isToken (character :: rest) then some ([], character :: rest)
    else (splitToken? rest).map fun (before, token) => (character :: before, token)

/-- The split text is the text before and the token. -/
theorem append_of_splitToken? {text before token : List Char}
    (split : splitToken? text = some (before, token)) : before ++ token = text := by
  induction text generalizing before with
  | nil => cases split
  | cons character rest ih =>
    rw [splitToken?] at split
    by_cases whole : isToken (character :: rest)
    · rw [if_pos whole] at split
      cases split
      rfl
    · rw [if_neg whole] at split
      cases later : splitToken? rest with
      | none =>
        rw [later] at split
        cases split
      | some parts =>
        rw [later] at split
        cases split
        rw [List.cons_append, ih later]

/-- What is split off is a token. -/
theorem isToken_of_splitToken? {text before token : List Char}
    (split : splitToken? text = some (before, token)) : isToken token := by
  induction text generalizing before with
  | nil => cases split
  | cons character rest ih =>
    rw [splitToken?] at split
    by_cases whole : isToken (character :: rest)
    · rw [if_pos whole] at split
      cases split
      exact whole
    · rw [if_neg whole] at split
      cases later : splitToken? rest with
      | none =>
        rw [later] at split
        cases split
      | some parts =>
        rw [later] at split
        cases split
        exact ih later

/-- A token is not empty. -/
theorem ne_nil_of_isToken {token : List Char} (holds : isToken token) : token ≠ [] := by
  rintro rfl
  simp [isToken] at holds

/-- Splitting a token off shortens a text. -/
theorem length_lt_of_splitToken? {text before token : List Char}
    (split : splitToken? text = some (before, token)) : before.length < text.length := by
  have whole := congrArg List.length (append_of_splitToken? split)
  have some := List.length_pos_iff.mpr (ne_nil_of_isToken (isToken_of_splitToken? split))
  rw [List.length_append] at whole
  omega

end TreeQuery
