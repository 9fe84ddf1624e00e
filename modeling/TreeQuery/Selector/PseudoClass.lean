import TreeQuery.Selector.Diagnosed
import TreeQuery.Selector.Nth
import TreeQuery.Text.Piece
import TreeQuery.TreeView.Position

/-!
# Pseudo-classes

A pseudo-class speaks of the position of a node among its siblings. Three are known: first child,
last child and the counting one; any other is accepted with a notice and holds of no node. In a
token a pseudo-class follows a colon, and reaches as far as no character comes that starts another
part; an argument in parentheses is part of it whatever it holds.
-/
namespace TreeQuery

/-- A pseudo-class. -/
inductive PseudoClass where
  /-- No content stands before the node. -/
  | firstChild
  /-- No content stands after the node. -/
  | lastChild
  /-- The number of the node is one that the expression picks. -/
  | nthChild (nth : Nth)
  /-- A pseudo-class that is not known, as written. -/
  | unknown (clause : String)
  deriving DecidableEq, Repr

namespace PseudoClass

/-- Whether a node has the pseudo-class. -/
def accepts {ν : Type} (pseudo : PseudoClass) (view : TreeView ν) (node : ν) : Bool :=
  match pseudo with
  | firstChild => view.isFirst node
  | lastChild => view.isLast node
  | nthChild nth => nth.picks (view.position node)
  | unknown _ => false

/-- The notice that a pseudo-class is not known. -/
def unsupported (clause : String) : Notice where
  component := "Selector"
  message := "unsupported pseudo-class ':" ++ clause ++ "' never matches"

/-- The name in a clause, which ends where an argument begins. -/
def nameOf (clause : List Char) : List Char := clause.takeWhile (· != '(')

/-- The argument in a clause: what is behind the opening parenthesis, less one parenthesis that
closes it at the end. -/
def argumentOf (clause : List Char) : Option (List Char) :=
  match clause.dropWhile (· != '(') with
  | [] => none
  | _ :: inner => some (if inner.getLast? = some ')' then inner.dropLast else inner)

/-- Reads a clause without its colon. -/
def parse (clause : List Char) : Diagnosed PseudoClass :=
  match String.ofList (Text.small (nameOf clause)), argumentOf clause with
  | "first-child", none => pure firstChild
  | "last-child", none => pure lastChild
  | "nth-child", some argument => do
    let nth ← Diagnosed.ofExcept (Nth.parse argument)
    pure (nthChild nth)
  | _, _ => do
    Diagnosed.notice (unsupported (String.ofList clause))
    pure (unknown (String.ofList clause))

/-- Whether a character starts another part of a token. -/
def startsPart (character : Char) : Bool :=
  character == ':' || character == '.' || character == '#' || character == '*' ||
    character == '['

/-- Splits a text where the clause at its front ends, from inside an argument or outside. An
argument that is never closed is no part of the clause. -/
def splitClause : Bool → List Char → List Char × List Char
  | _, [] => ([], [])
  | true, character :: rest =>
    let later := splitClause (character != ')') rest
    (character :: later.1, later.2)
  | false, character :: rest =>
    if startsPart character || (character == '(' && !rest.contains ')') then
      ([], character :: rest)
    else
      let later := splitClause (character == '(') rest
      (character :: later.1, later.2)

/-- The clause and the rest are the text. -/
theorem splitClause_append (inside : Bool) (text : List Char) :
    (splitClause inside text).1 ++ (splitClause inside text).2 = text := by
  induction text generalizing inside with
  | nil => cases inside <;> rfl
  | cons character rest ih =>
    cases inside with
    | true => simp [splitClause, ih]
    | false =>
      rw [splitClause]
      split
      · rfl
      · simp [ih]

/-- Reads a clause with its colon. -/
def read : List Char → Option (List Char × List Char)
  | ':' :: text =>
    match splitClause false text with
    | ([], _) => none
    | (clause, rest) => some (clause, rest)
  | _ => none

/-- Pseudo-classes as pieces of a token. -/
def piece : Text.Piece (List Char) where
  read := read
  shorter := by
    intro text clause rest found
    unfold read at found
    split at found
    · rename_i tail
      split at found
      · cases found
      · rename_i first second filled split
        cases found
        have whole := congrArg List.length (splitClause_append false tail)
        simp only [split, List.length_append] at whole
        simp only [List.length_cons]
        omega
    · cases found

end PseudoClass

end TreeQuery
