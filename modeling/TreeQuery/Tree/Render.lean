import TreeQuery.Tree

/-!
# Trees as text

A node is shown by what it holds: an element as its opening tag with the attributes in the order of
their names, a text in quotes with its line feeds and spaces made visible, a comment between its
marks. An outline shows a node and all that is below it, indented by depth, one line after the
other. A text has less than 2^63 bytes, so a line that is deeper than the widest indentation cannot
be shown, and the outline stops before it (`Printout`).
-/
namespace TreeQuery

/-- Lines that are printed one after the other, as far as they can be. -/
structure Printout where
  /-- The lines that are printed. -/
  lines : List String
  /-- Whether these are all lines. One that cannot be printed ends the printout. -/
  whole : Bool
  deriving DecidableEq, Repr

namespace Printout

/-- Nothing to print. -/
def empty : Printout := ⟨[], true⟩

/-- One line, if it can be printed. -/
def ofLine : Option String → Printout
  | some line => ⟨[line], true⟩
  | none => ⟨[], false⟩

/-- A printout and another behind it, which is begun when the first one is whole. -/
def append (first second : Printout) : Printout :=
  if first.whole then ⟨first.lines ++ second.lines, second.whole⟩ else first

instance : Append Printout := ⟨append⟩

/-- Printouts one behind the other. -/
def concat (parts : List Printout) : Printout := parts.foldr (· ++ ·) empty

/-- Behind a whole printout the other one is printed. -/
theorem append_of_whole {first : Printout} (whole : first.whole) (second : Printout) :
    first ++ second = ⟨first.lines ++ second.lines, second.whole⟩ := if_pos whole

/-- Behind a printout that was ended nothing is printed. -/
theorem append_of_not_whole {first : Printout} (ended : first.whole = false)
    (second : Printout) : first ++ second = first :=
  if_neg (by rw [ended]; exact Bool.false_ne_true)

/-- Nothing behind a printout changes nothing. -/
@[simp] theorem append_empty (printout : Printout) : printout ++ empty = printout := by
  obtain ⟨lines, _ | _⟩ := printout
  · rfl
  · rw [append_of_whole rfl, empty, List.append_nil]

/-- Three printouts come in their order. -/
theorem append_assoc (first second third : Printout) :
    first ++ second ++ third = first ++ (second ++ third) := by
  cases begun : first.whole with
  | false => simp only [append_of_not_whole begun]
  | true =>
    rw [append_of_whole begun, append_of_whole begun]
    cases further : second.whole with
    | false => rw [append_of_not_whole further, append_of_not_whole rfl, further]
    | true => rw [append_of_whole further, append_of_whole rfl, List.append_assoc]

/-- Printouts with a first one. -/
@[simp] theorem concat_cons (first : Printout) (later : List Printout) :
    concat (first :: later) = first ++ concat later := rfl

/-- Printouts in two lists come in the order of the lists. -/
theorem concat_append (first second : List Printout) :
    concat (first ++ second) = concat first ++ concat second := by
  induction first with
  | nil => rfl
  | cons head tail ih => rw [List.cons_append, concat_cons, concat_cons, ih, append_assoc]

/-- Printouts in many lists come list by list. -/
theorem concat_flatMap {α : Type} (parts : α → List Printout) (values : List α) :
    concat (values.flatMap parts) = concat (values.map fun value => concat (parts value)) := by
  induction values with
  | nil => rfl
  | cons first later ih => rw [List.flatMap_cons, concat_append, ih, List.map_cons, concat_cons]

/-- Lines are printed up to the first one that cannot be. -/
theorem concat_ofLine {α : Type} (fits : α → Bool) (line : α → String) (values : List α) :
    concat (values.map fun value => ofLine (if fits value then some (line value) else none)) =
      ⟨(values.takeWhile fits).map line, values.all fits⟩ := by
  induction values with
  | nil => rfl
  | cons first later ih =>
    rw [List.map_cons, concat_cons, ih]
    cases fitting : fits first with
    | false =>
      rw [if_neg Bool.false_ne_true, append_of_not_whole rfl,
        List.takeWhile_cons_of_neg (by simp [fitting]), List.all_cons, fitting]
      rfl
    | true =>
      rw [if_pos rfl, append_of_whole rfl, List.takeWhile_cons_of_pos fitting, List.all_cons,
        fitting]
      rfl

end Printout

/-- What stands for a character of a text. -/
def Content.visible (character : Char) : List Char :=
  if character = '\n' then ['\\', 'n'] else if character = ' ' then ['·'] else [character]

/-- An attribute in an opening tag, its name alone when the value is empty. -/
def Content.showAttribute (entry : String × String) : String :=
  if entry.2 = "" then entry.1 else entry.1 ++ "=\"" ++ entry.2 ++ "\""

/-- The line that shows a node with a content. -/
def Content.line : Content → String
  | document => "Document"
  | element tag attributes =>
    "<" ++ tag ++
      String.join (attributes.entries.map fun entry => " " ++ Content.showAttribute entry) ++ ">"
  | text data => "\"" ++ String.ofList (data.toList.flatMap Content.visible) ++ "\""
  | comment data => "<!-- " ++ data ++ " -->"

namespace Tree

/-- The line that shows a node, empty for a number that no node has. -/
def line (tree : Tree) (id : NodeId) : String := ((tree.content id).map Content.line).getD ""

/-- The white space before a line at a depth, two blanks for each step, if a text can hold it. -/
def indentation? (depth : Nat) : Option String :=
  if 2 * depth < 9223372036854775808 then some (String.ofList (List.replicate (2 * depth) ' '))
  else none

/-- The line of a node at a depth. -/
def indentedLine (tree : Tree) (depth : Nat) (id : NodeId) : Printout :=
  .ofLine ((indentation? depth).map (· ++ tree.line id))

/-- The lines of a node at a depth and of what lies below it, as many levels as the bound. -/
def outlineWithin (tree : Tree) : Nat → Nat → NodeId → Printout
  | 0, depth, id => tree.indentedLine depth id
  | bound + 1, depth, id =>
    tree.indentedLine depth id ++
      .concat ((tree.children id).map (tree.outlineWithin bound (depth + 1)))

/-- The lines of a node at a depth and of all that lies below it. -/
def outline (tree : Tree) (id : NodeId) (depth : Nat) : Printout :=
  tree.outlineWithin tree.size depth id

end Tree

end TreeQuery
