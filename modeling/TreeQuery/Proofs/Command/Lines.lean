import TreeQuery.Command.Run
import TreeQuery.Proofs.Document.Rendering
import TreeQuery.Proofs.Tree.Outline
/-!
# Lines that are printed

A node is shown by one line of text, and each line is printed with a line feed behind it. A line
feed in the data of a text is shown by two other characters; one in a tag, in an attribute or in a
comment is shown as it is, and breaks the line (`Content.breaks`). So a printed node takes as many
lines as it has breaks, and one more: in an outline, and among the nodes that the command selects,
where the lines are as many as the nodes when no node selected has a break, and only then
(`Tree.lineFeeds_printed`).
-/
namespace TreeQuery

/-- How many line feeds are in a text. -/
def lineFeeds (text : String) : Nat := text.toList.count '\n'

/-- The line feeds of two texts are those of both together. -/
@[simp] theorem lineFeeds_append (first second : String) :
    lineFeeds (first ++ second) = lineFeeds first + lineFeeds second := by
  simp [lineFeeds]

/-- The line feeds of several texts are those of all together. -/
theorem lineFeeds_join (texts : List String) :
    lineFeeds (String.join texts) = (texts.map lineFeeds).sum := by
  rw [lineFeeds, String.toList_join, List.count_flatMap]
  rfl

/-- A line is printed in front of those behind it. -/
theorem unlines_cons (first : String) (later : List String) :
    unlines (first :: later) = first ++ "\n" ++ unlines later := by
  apply String.toList_inj.mp
  simp [unlines, String.toList_join]

/-- Lines are printed in front of others. -/
theorem unlines_append (first second : List String) :
    unlines (first ++ second) = unlines first ++ unlines second := by
  apply String.toList_inj.mp
  simp [unlines, String.toList_join]

/-- Lines are printed with one line feed each, besides those in them. -/
theorem lineFeeds_unlines (lines : List String) :
    lineFeeds (unlines lines) = lines.length + (lines.map lineFeeds).sum := by
  induction lines with
  | nil => rfl
  | cons first later ih =>
    have ending : lineFeeds "\n" = 1 := rfl
    rw [unlines_cons, lineFeeds_append, lineFeeds_append, ending, ih, List.length_cons,
      List.map_cons, List.sum_cons]
    omega

namespace Content

/-- How many line feeds of a content are shown as they are. -/
def breaks : Content → Nat
  | document => 0
  | element tag attributes =>
    lineFeeds tag +
      (attributes.entries.map fun entry => lineFeeds entry.1 + lineFeeds entry.2).sum
  | text _ => 0
  | comment data => lineFeeds data

/-- An attribute is shown with the line feeds of its name and its value. -/
theorem lineFeeds_showAttribute (entry : String × String) :
    lineFeeds (showAttribute entry) = lineFeeds entry.1 + lineFeeds entry.2 := by
  unfold showAttribute
  split
  · rename_i empty
    rw [empty]
    rfl
  · simp only [lineFeeds_append]
    rfl

/-- What stands for a character of a text is no line feed. -/
theorem lineFeed_not_mem_visible (character : Char) : '\n' ∉ visible character := by
  unfold visible
  split
  · decide
  · split
    · decide
    · rename_i other _
      simpa using Ne.symm other

/-- The line of a node has the line feeds of its content that are shown as they are. -/
theorem lineFeeds_line (content : Content) : lineFeeds content.line = content.breaks := by
  cases content with
  | document => rfl
  | element tag attributes =>
    have blank : lineFeeds " " = 0 := rfl
    have opening : lineFeeds "<" = 0 := rfl
    have closing : lineFeeds ">" = 0 := rfl
    simp only [line, breaks, lineFeeds_append, lineFeeds_join, List.map_map, Function.comp_def,
      lineFeeds_showAttribute, blank, opening, closing, Nat.zero_add, Nat.add_zero]
  | text data =>
    have quote : lineFeeds "\"" = 0 := rfl
    have none : (data.toList.flatMap visible).count '\n' = 0 := by
      refine List.count_eq_zero.mpr fun inside => ?_
      obtain ⟨character, -, stands⟩ := List.mem_flatMap.mp inside
      exact lineFeed_not_mem_visible character stands
    have shown : lineFeeds (String.ofList (data.toList.flatMap visible)) = 0 := by
      rw [lineFeeds, String.toList_ofList, none]
    simp only [line, breaks, lineFeeds_append, quote, shown]
  | comment data =>
    have opening : lineFeeds "<!-- " = 0 := rfl
    have closing : lineFeeds " -->" = 0 := rfl
    simp only [line, breaks, lineFeeds_append, opening, closing, Nat.zero_add, Nat.add_zero]

end Content

namespace Tree

/-- How many line feeds a node holds that are shown as they are. -/
def breaks (tree : Tree) (id : NodeId) : Nat := ((tree.content id).map Content.breaks).getD 0

variable (tree : Tree)

/-- The line of a node has its breaks. -/
theorem lineFeeds_line (id : NodeId) : lineFeeds (tree.line id) = tree.breaks id := by
  unfold line breaks
  cases tree.content id with
  | none => rfl
  | some content => exact content.lineFeeds_line

/-- The white space before a line does not break it. -/
theorem lineFeeds_placedLine (depth : Nat) (entry : List Nat × NodeId) :
    lineFeeds (tree.placedLine depth entry) = tree.breaks entry.2 := by
  have none : '\n' ∉ List.replicate (2 * (depth + entry.1.length)) ' ' := fun inside =>
    absurd (List.eq_of_mem_replicate inside) (by decide)
  rw [placedLine, lineFeeds_append, tree.lineFeeds_line, lineFeeds, String.toList_ofList,
    List.count_eq_zero.mpr none, Nat.zero_add]

/-- An outline that comes to an end takes one line for its node and for each one that is visited
below it, and one more for each of their breaks. -/
theorem lineFeeds_outline {id : NodeId} {depth : Nat} (outlined : tree.Outlined id depth) :
    lineFeeds (unlines (tree.outline id depth).lines) =
      (id :: tree.descendants id).length + ((id :: tree.descendants id).map tree.breaks).sum := by
  have below : tree.descendants id = Walk.below tree.children tree.size id :=
    tree.view.descendants_eq_below id
  rw [below, ← Walk.map_snd_placed, outlined.outline_eq, lineFeeds_unlines]
  simp only [List.length_map, List.map_map, Function.comp_def, tree.lineFeeds_placedLine]

end Tree

namespace Options

variable (options : Options) (tree : Tree)

/-- The options with the number of nodes asked for, too. -/
def counting : Options := { options with switches := .count :: options.switches }

/-- Asking for the number changes nothing that is printed before the nodes are selected. -/
theorem treeLines_counting : options.counting.treeLines tree = options.treeLines tree := by
  have same : options.counting.has .tree = options.has .tree := by
    simp [has, counting]
  rw [treeLines, treeLines, same]

/-- Colours do not break a line. -/
theorem lineFeeds_matchLine (id : NodeId) :
    lineFeeds (options.matchLine tree id) = tree.breaks id := by
  have green : lineFeeds "\x1b[32m" = 0 := rfl
  have plain : lineFeeds "\x1b[39m" = 0 := rfl
  unfold matchLine
  split
  · exact tree.lineFeeds_line id
  · simp only [lineFeeds_append, tree.lineFeeds_line, green, plain, Nat.zero_add, Nat.add_zero]

/-- The tree is printed whole when it is not asked for, or its outline comes to an end. -/
theorem whole_treeLines (outlined : options.has .tree → tree.Outlined Tree.root 0) :
    (options.treeLines tree).whole := by
  unfold treeLines
  split
  · rename_i asked
    rw [(outlined asked).outline_eq]
    rfl
  · rfl

/-- Where nodes are selected, they are printed behind the tree, if that is asked for. -/
theorem output_report {nodes : List NodeId} (whole : (options.treeLines tree).whole)
    (selects : (tree.host.select options.selector).outcome = .ok nodes) :
    (options.report tree).output =
      unlines (options.treeLines tree).lines ++ unlines (options.matchLines tree nodes) := by
  simp only [report, whole, if_true, selection, selects, unlines_append]

/-- The command runs on the tree of the document that is given to it as text. -/
theorem run_inline {document : Document} (fits : document.toJson.depth ≤ 127)
    (loads : Tree.ofDocument document = .ok tree)
    (given : options.source = some (.inline document.toText)) (read : Except String ByteArray) :
    options.run read = options.report tree := by
  have parsed : Tree.ofText document.toText = .ok tree := by
    rw [Tree.ofText, Document.ofText?_toText fits]
    exact loads
  have loaded : options.load read = .ok tree := by
    rw [load, given]
    change (Tree.ofText document.toText).mapError _ = _
    rw [parsed]
    rfl
  rw [run, loaded]

end Options

/-- A node is shown with its breaks. An outline that comes to an end takes one line for each node
visited and one more for each of their breaks. So do the nodes that the command selects: they are
printed behind the tree, in as many lines as there are nodes when none of them has a break, and only
then. When the command is asked for their number, it prints that in their place. -/
theorem Tree.lineFeeds_printed (tree : Tree) :
    (∀ id, lineFeeds (tree.line id) = tree.breaks id) ∧
    (∀ id depth, tree.Outlined id depth →
      (tree.outline id depth).whole ∧ lineFeeds (unlines (tree.outline id depth).lines) =
        (id :: tree.descendants id).length +
          ((id :: tree.descendants id).map tree.breaks).sum) ∧
    ∀ (options : Options) nodes, options.has .count = false →
      (options.has .tree → tree.Outlined Tree.root 0) →
      (tree.host.select options.selector).outcome = .ok nodes →
      ∃ shown, (options.report tree).output = unlines (options.treeLines tree).lines ++ shown ∧
        lineFeeds shown = nodes.length + (nodes.map tree.breaks).sum ∧
        (lineFeeds shown = nodes.length ↔ ∀ node ∈ nodes, tree.breaks node = 0) ∧
        (options.counting.report tree).output =
          unlines (options.treeLines tree).lines ++ (toString nodes.length ++ "\n") := by
  refine ⟨tree.lineFeeds_line, fun id depth outlined => ?_,
    fun options nodes plain outlined selects => ?_⟩
  · exact ⟨congrArg Printout.whole outlined.outline_eq, tree.lineFeeds_outline outlined⟩
  have whole := options.whole_treeLines tree outlined
  have lines : lineFeeds (unlines (options.matchLines tree nodes)) =
      nodes.length + (nodes.map tree.breaks).sum := by
    simp only [Options.matchLines, plain, lineFeeds_unlines, List.length_map, List.map_map,
      Function.comp_def, options.lineFeeds_matchLine, Bool.false_eq_true, if_false]
  have asked : options.counting.has .count := by simp [Options.has, Options.counting]
  have number : options.counting.matchLines tree nodes = [toString nodes.length] := by
    rw [Options.matchLines, if_pos asked]
  have alone : unlines [toString nodes.length] = toString nodes.length ++ "\n" := by
    rw [unlines_cons]
    exact String.append_empty
  have same := options.treeLines_counting tree
  refine ⟨unlines (options.matchLines tree nodes), options.output_report tree whole selects, lines,
    ?_, ?_⟩
  · rw [lines, Nat.add_eq_left, List.sum_eq_zero_iff_forall_eq_nat, List.forall_mem_map]
  · rw [options.counting.output_report tree (same ▸ whole) selects, same, number, alone]

/-- The list with an item beside it, too, is printed in four lines, and the item, which is selected
once, in one line behind them. -/
theorem Tree.lineFeeds_printed_raisedItem :
    let options : Options := ⟨"li", none, [.tree, .noColor]⟩
    raisedItem.Outlined root 0 ∧ (raisedItem.host.select "li").outcome = .ok [2] ∧
    lineFeeds (unlines (raisedItem.outline root 0).lines) = 4 ∧
    ∃ shown, (options.report raisedItem).output =
        unlines (options.treeLines raisedItem).lines ++ shown ∧ lineFeeds shown = 1 := by
  intro options
  have outlined : raisedItem.Outlined root 0 :=
    outlined_of_size noCircle_raisedItem (by decide) root
  have selects : (raisedItem.host.select "li").outcome = .ok [2] := by decide +kernel
  obtain ⟨-, outlines, prints⟩ := Tree.lineFeeds_printed raisedItem
  obtain ⟨shown, output, lines, -⟩ := prints options [2] rfl (fun _ => outlined) selects
  refine ⟨outlined, selects, ?_, shown, output, ?_⟩
  · rw [(outlines root 0 outlined).2]
    decide +kernel
  · rw [lines]
    rfl

/-- A paragraph with a title of two lines. -/
def titleOfTwoLines : Document := .element "p" (.ofPairs [("title", "a\nb")]) []

/-- The paragraph is selected, is one node by the number printed, and is printed in two lines. -/
theorem Tree.lineFeeds_printed_titleOfTwoLines :
    let source := some (.inline titleOfTwoLines.toText)
    (Options.run ⟨"p", source, [.noColor]⟩ (.ok .empty)).output = "<p title=\"a\nb\">\n" ∧
    (Options.run ⟨"p", source, [.noColor, .count]⟩ (.ok .empty)).output = "1\n" ∧
    lineFeeds "<p title=\"a\nb\">\n" = 2 := by
  have fits : titleOfTwoLines.toJson.depth ≤ 127 := by decide
  refine ⟨?_, ?_, rfl⟩
  · rw [Options.run_inline _ _ fits rfl rfl]
    decide +kernel
  · rw [Options.run_inline _ _ fits rfl rfl]
    decide +kernel

end TreeQuery
