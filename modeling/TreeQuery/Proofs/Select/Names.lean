import Mathlib.Data.String.Basic
import TreeQuery.Proofs.Select.Meaning
import TreeQuery.Proofs.Selector.SpelledOut
/-!
# Selecting by names

The simplest selectors are names put together: a tag, and behind it classes and at most one id in
any order. Such a selector is one token, whatever names it is made of (`WrittenNames.token`), and
the token asks for the names one by one (`WrittenNames.accepts_iff`). So a selector of names selects
the elements below the root that have them all (`Tree.select_names`).
-/
namespace TreeQuery

/-- The tag that a front writes, if it writes one. -/
def WrittenHead.tag? : WrittenHead → Option String
  | tag first _ rest => some (String.ofList (first :: rest.text))
  | _ => none

/-- A front asks for its tag if it writes one, and for nothing else. -/
theorem WrittenHead.test_accepts_iff (head : WrittenHead) (tag : String) :
    head.test.accepts tag ↔ ∀ name ∈ head.tag?, Text.sameLetters name.toList tag.toList := by
  cases head <;> simp [test, tag?, TagTest.accepts]

/-- Whether a part is a class or an id. -/
def WrittenPart.IsName : WrittenPart → Prop
  | className _ => True
  | id _ => True
  | _ => False

/-- Which parts are names can be decided. -/
instance : DecidablePred WrittenPart.IsName
  | .className _ => .isTrue trivial
  | .id _ => .isTrue trivial
  | .clause _ => .isFalse id
  | .pseudo _ => .isFalse id

/-- A class and an id write no predicate. -/
theorem WrittenPart.IsName.bare {part : WrittenPart} (name : part.IsName) :
    part.test? = none ∧ part.pseudo? = none := by
  cases part with
  | className _ | id _ => exact ⟨rfl, rfl⟩
  | clause _ | pseudo _ => cases name

/-- A selector of names as written: a tag, a star or neither, and behind it classes and at most one
id in any order. -/
structure WrittenNames extends WrittenCompound where
  /-- There is a first character. -/
  filled : toWrittenCompound.text ≠ []
  /-- Behind the front stand classes and ids alone. -/
  named : ∀ part ∈ parts, part.IsName
  /-- At most one id is written. -/
  single : toWrittenCompound.ids.length ≤ 1

namespace WrittenNames

variable (written : WrittenNames)

/-- Names write no predicate. -/
theorem bare : written.tests = [] ∧ written.pseudos = [] :=
  ⟨List.filterMap_eq_nil_iff.mpr fun part listed => (written.named part listed).bare.1,
    List.filterMap_eq_nil_iff.mpr fun part listed => (written.named part listed).bare.2⟩

/-- A selector of names is one token. -/
def token : WrittenToken where
  toWrittenCompound := written.toWrittenCompound
  filled := written.filled
  plain part listed := by
    have name := written.named part listed
    cases part with
    | className _ | id _ | pseudo _ => trivial
    | clause _ => cases name

/-- A selector of names is read as a filter for them. -/
theorem outcome_parse : (Query.parse (String.ofList written.text)).outcome =
    .ok ⟨written.compound [], []⟩ := by
  have segments : (Cursor.ofSelector (String.ofList written.text)).segments =
      (Segment.ofParts written.text []).map .ok := by
    have whole := (WrittenSelector.token written.token.clean).segments_ofSelector
      ⟨[], nofun⟩ ⟨[], nofun⟩
    simp only [List.nil_append, List.append_nil] at whole
    exact whole
  have read : (Compound.parse written.text).outcome = .ok (written.compound []) := by
    rw [written.outcome_parse_text, written.bare.2]
    exact if_neg (Nat.not_lt.mpr written.single)
  exact Query.outcome_parse_of_segments segments read .nil

end WrittenNames

/-- An attribute holds a word when the word stands in its value. -/
theorem TreeView.attributeWords_contains_iff {ν : Type} (view : TreeView ν) (node : ν)
    (key word : String) : (view.attributeWords node key).contains word ↔
      ∃ value, view.attributeOf node key = some value ∧ word.toList ∈ Text.words value.toList := by
  rw [List.contains_iff_mem, attributeWords]
  cases view.attributeOf node key with
  | none => simp
  | some value => simp [String.ofList_eq]

/-- Whether a node of a tree is an element with the names that are written: its tag is the one at
the front up to the case of letters, its attribute `id` is the id, and each class is a word of its
attribute `class`. -/
def Tree.HasNames (tree : Tree) (id : NodeId) (written : WrittenCompound) : Prop :=
  ∃ tag attributes, tree.content id = some (.element tag attributes) ∧
    (∀ name ∈ written.head.tag?, Text.sameLetters name.toList tag.toList) ∧
    (∀ name ∈ written.ids, attributes.get? "id" = some name) ∧
    ∀ name ∈ written.classes, ∃ value, attributes.get? "class" = some value ∧
      name.toList ∈ Text.words value.toList

/-- A selector of names accepts the elements that have them all. -/
theorem WrittenNames.accepts_iff (written : WrittenNames) (tree : Tree) (id : NodeId) :
    (written.compound []).accepts tree.view id ↔ tree.HasNames id written.toWrittenCompound := by
  rw [WrittenCompound.accepts_compound written.single, WrittenCompound.forall_asks_iff]
  simp only [written.bare.1, TreeView.attributeWords_contains_iff, List.not_mem_nil, false_implies,
    implies_true, and_true, Tree.HasNames, Tree.view]
  cases tree.content id with
  | none => simp
  | some content =>
    cases content with
    | document | text data | comment data => simp [Content.kind]
    | element tag attributes =>
      simp [Content.kind, Content.tag?, Content.attributes?, WrittenHead.test_accepts_iff]

/-- A selector of names selects the elements below the root that have them all, in document order
and each once. -/
theorem Tree.select_names {tree : Tree} (noCircles : tree.view.NoCircles)
    (written : WrittenNames) :
    ∃ selected order,
      (tree.host.select (String.ofList written.text)).outcome = .ok selected ∧
      Walk.DocumentOrder tree.children (tree.children root) order ∧
      selected.Sublist order.eraseDups ∧ selected.Nodup ∧
      ∀ id, id ∈ selected ↔
        tree.view.Below root id ∧ tree.HasNames id written.toWrittenCompound := by
  obtain ⟨selected, order, selects, ordered, sublist, distinct, members⟩ :=
    tree.host.exists_selected_of_subject noCircles root written.outcome_parse
  refine ⟨selected, order, selects, ordered, sublist, distinct, fun id => ?_⟩
  rw [members, ← written.accepts_iff]
  rfl

/-- A row of three cells, the last two of one class and the last one of another besides, with
several blanks between the two. -/
def Tree.threeCells : Tree :=
  (((Tree.empty.add 0 (.element "tr" .empty)).add 1 (.element "td" .empty)).add 1
    (.element "td" (.ofPairs [("id", "b"), ("class", "new")]))).add 1
    (.element "TD" (.ofPairs [("class", " open \t new "), ("id", "c")]))

/-- A cell with an id between two classes, of which the second is repeated. -/
def WrittenNames.openCell : WrittenNames where
  head := .tag 't' (by decide) (.ofText "d".toList (by decide))
  parts := [.className (.ofText "new".toList (by decide) (by decide)),
    .id (.ofText "c".toList (by decide) (by decide)),
    .className (.ofText "open".toList (by decide) (by decide)),
    .className (.ofText "new".toList (by decide) (by decide))]
  filled := List.cons_ne_nil _ _
  named := by decide
  single := Nat.le_refl 1

/-- The last cell is selected, by its tag in other letters and its classes in another order. -/
theorem Tree.select_names_openCell :
    threeCells.view.NoCircles ∧
    String.ofList WrittenNames.openCell.text = "td.new#c.open.new" ∧
    (threeCells.host.select "td.new#c.open.new").outcome = .ok [4] ∧
    ∃ selected order,
      (threeCells.host.select "td.new#c.open.new").outcome = .ok selected ∧
      Walk.DocumentOrder threeCells.children (threeCells.children root) order ∧
      selected.Sublist order.eraseDups ∧ selected.Nodup ∧
      ∀ id, id ∈ selected ↔ threeCells.view.Below root id ∧
        threeCells.HasNames id WrittenNames.openCell.toWrittenCompound := by
  have noCircles : threeCells.view.NoCircles := noCircles_of_linksForward (by decide)
  have text : String.ofList WrittenNames.openCell.text = "td.new#c.open.new" := by decide
  exact ⟨noCircles, text, by decide +kernel, text ▸ select_names noCircles WrittenNames.openCell⟩

end TreeQuery
