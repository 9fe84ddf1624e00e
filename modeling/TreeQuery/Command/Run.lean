import TreeQuery.Command.Options
import TreeQuery.Command.Report
import TreeQuery.Select
import TreeQuery.Tree.OfDocument
import TreeQuery.Tree.Render
import TreeQuery.Tree.View

/-!
# Running the command

The command loads a document, prints its tree if asked to, selects nodes, and prints their number
or a line for each. What it printed before a failure stays. Notices are shown before a failure of
the selector that gave them. A tree with a line that cannot be printed ends the command there.
-/
namespace TreeQuery

namespace Source

/-- Bytes as text. -/
def decode (bytes : ByteArray) : Except String String :=
  match String.fromUTF8? bytes with
  | none => .error "stream did not contain valid UTF-8"
  | some text => .ok text

/-- The text of a document, from what reading its source gave: its bytes, or why there are none. -/
def text (source : Source) (read : Except String ByteArray) : Except Failure String :=
  match source with
  | inline text => .ok text
  | standardInput =>
    (read >>= decode).mapError fun reason => ⟨"cannot read document from stdin", [reason]⟩
  | file path => (read >>= decode).mapError fun reason => ⟨"cannot read '" ++ path ++ "'", [reason]⟩

end Source

namespace Options

/-- The tree of the document that the options name. -/
def load (options : Options) (read : Except String ByteArray) : Except Failure Tree :=
  match options.source with
  | none => .error ⟨"no document given: pass --file <FILE> or --json <JSON>", []⟩
  | some source => do
    let text ← source.text read
    (Tree.ofText text).mapError fun error => ⟨"cannot load document", error.causes⟩

/-- A line for a node, in green unless colours are off. -/
def matchLine (options : Options) (tree : Tree) (id : NodeId) : String :=
  if options.has .noColor then tree.line id else "\x1b[32m" ++ tree.line id ++ "\x1b[39m"

/-- What is printed for the nodes selected. -/
def matchLines (options : Options) (tree : Tree) (selected : List NodeId) : List String :=
  if options.has .count then [toString selected.length]
  else selected.map (options.matchLine tree)

/-- What is printed before the nodes are selected. -/
def treeLines (options : Options) (tree : Tree) : Printout :=
  if options.has .tree then
    .ofLine (some "=== Document Tree ===") ++ tree.outline Tree.root 0 ++ .ofLine (some "")
  else .empty

/-- The notices that are shown. -/
def noticeLines (options : Options) (notices : List Notice) : List String :=
  (NoticeLog.recordAll { quiet := options.has .quiet } notices).2

/-- Selects nodes of a tree and reports them, behind what was printed before. -/
def selection (options : Options) (tree : Tree) (before : List String) : Report :=
  let selected := tree.host.select options.selector
  let shown := unlines (options.noticeLines selected.notices)
  match selected.outcome with
  | .ok nodes => ⟨0, unlines (before ++ options.matchLines tree nodes), shown⟩
  | .error error =>
    let failure : Failure :=
      ⟨"cannot evaluate selector '" ++ options.selector ++ "'", [error.message]⟩
    ⟨1, unlines before, shown ++ failure.toText⟩

/-- Reports what is printed of a tree, and the nodes selected in it if the printout is whole. -/
def report (options : Options) (tree : Tree) : Report :=
  let before := options.treeLines tree
  if before.whole then options.selection tree before.lines else .stopped before.lines

/-- Does what the options ask for, with what reading the source gave. -/
def run (options : Options) (read : Except String ByteArray) : Report :=
  match options.load read with
  | .error failure => ⟨1, "", failure.toText⟩
  | .ok tree => options.report tree

end Options

/-- The report on arguments that are misuse. -/
def Report.misuse : Report :=
  ⟨2, "", unlines [
    "usage: sift [OPTIONS] <SELECTOR>",
    "options: -f, --file <FILE>  --json <JSON>  -t, --tree  -c, --count  --no-color  -q, --quiet"]⟩

end TreeQuery
