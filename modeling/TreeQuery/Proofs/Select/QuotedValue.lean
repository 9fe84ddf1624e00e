import TreeQuery.Proofs.Select.Meaning
import TreeQuery.Proofs.Selector.Account
import TreeQuery.Proofs.Selector.TokenLanguage
/-!
# Selecting by a quoted value

A value in double quotes may hold anything but a double quote, for the clause that compares with it
is read up to the quote that closes it. The clause must first be handed out as a token, though, and
there it ends at the first closing bracket, in quotes or not. So the elements with the value are
selected when the token goes on behind every bracket in the value and comes back into a clause
(`Tree.select_quoted`), as it does when there is none; any other value makes the selector
malformed, since what is handed out ends with a quote that no clause has opened.
-/
namespace TreeQuery

open AttributeClause Compound

namespace WrittenClause

variable (name : Text.FilledRun Compound.isNameCharacter) (value : Text.Run (· != '"'))

/-- The clause that compares an attribute with a value in double quotes, without blanks. -/
def quoted : WrittenClause :=
  comparing (name.imp fun _ => AttributeClause.isNameCharacter_of_compound) .equals
    AttributeOperator.equals_ne_present (.double value)

/-- What stands before the value. -/
def quotedFront : List Char := '[' :: (name.text ++ ['='])

/-- The text of a quoted clause. -/
theorem text_quoted : (quoted name value).text =
    quotedFront name ++ '"' :: (value.text ++ ['"', ']']) := by
  simp [quoted, comparing, text, quotedFront, WrittenComparison.text, WrittenValue.text,
    Text.FilledRun.imp, Text.Run.imp, Text.Run.ofText, AttributeOperator.sign]

end WrittenClause

namespace Token

/-- Without a closing bracket, reading stays inside a clause. -/
theorem run_clause_of_forall {inner : List Char} (plain : ∀ character ∈ inner, character ≠ ']') :
    run .clause inner = some .clause := by
  induction inner with
  | nil => rfl
  | cons character rest ih =>
    have inside : Place.clause.after character = some .clause :=
      if_neg (plain character List.mem_cons_self)
    rw [run_cons, inside]
    exact ih fun other later => plain other (List.mem_cons_of_mem _ later)

/-- A quoted clause is a token when reading its value comes back into a clause. -/
theorem isToken_quoted_iff (name : Text.FilledRun Compound.isNameCharacter)
    (value : Text.Run (· != '"')) : isToken (WrittenClause.quoted name value).text ↔
      run .clause value.text = some .clause := by
  have named : run .clause (name.text ++ ['=']) = some .clause := by
    refine run_clause_of_forall fun character inside => ?_
    rcases List.mem_append.mp inside with named | equals
    · exact ne_of_isNameCharacter (name.holds character named) (by decide)
    · rw [List.mem_singleton.mp equals]
      decide
  have front : run .outside (WrittenClause.quotedFront name) = some .clause := named
  have whole : run .outside (WrittenClause.quoted name value).text =
      (run .clause value.text).bind fun reached => run reached ['"', ']'] := by
    rw [WrittenClause.text_quoted, run_append, front, Option.bind_some, run_cons]
    exact run_append _ _ _
  rw [isToken_iff, whole]
  cases run .clause value.text with
  | none => simp
  | some place =>
    have filled : (WrittenClause.quoted name value).text ≠ [] := List.cons_ne_nil _ _
    cases place <;> simp [filled] <;> decide

end Token

/-- A clause that ends with a double quote has another one before. -/
theorem AttributeClause.Form.quote_mem {form : Form} {front : List Char}
    (closed : form.text = front ++ ['"', ']']) : '"' ∈ front := by
  rcases form.innerCharacters with ⟨inner, same⟩ | ⟨opening, quote, value, after, _, same⟩
  · have last : '[' :: inner.text = front ++ ['"'] := by
      apply (List.append_left_inj [']']).mp
      simpa [same] using closed
    have inside : '"' ∈ '[' :: inner.text :=
      last ▸ List.mem_append_right front (List.mem_singleton_self _)
    simp [inner.not_mem '"' (by decide)] at inside
  · have parted : ('[' :: (opening.text ++ quote :: value.text)) ++ quote :: after.text =
        front ++ ['"'] := by
      apply (List.append_left_inj [']']).mp
      simpa [same] using closed
    rcases List.append_eq_append_iff.mp parted with ⟨rest, whole, ends⟩ | ⟨rest, whole, ends⟩
    · have inside : '"' ∈ quote :: after.text := by simp [ends]
      have double : '"' = quote :=
        (List.mem_cons.mp inside).resolve_right (after.not_mem '"' (by decide))
      simp [whole, ← double]
    · have nothing : rest = [] := by
        cases rest with
        | nil => rfl
        | cons first others => simp at ends
      rw [nothing, List.nil_append, List.cons.injEq] at ends
      rw [nothing, List.append_nil] at whole
      rw [← whole, ends.1]
      simp

namespace WrittenClause

variable (name : Text.FilledRun Compound.isNameCharacter) (value : Text.Run (· != '"'))

/-- No quote stands before the value in front of the one that opens it. -/
theorem quote_not_mem_quotedFront : '"' ∉ quotedFront name := by
  simp [quotedFront, name.not_mem '"' (by decide)]

/-- A form of a clause at the end of a quoted clause is the whole of it. -/
theorem eq_of_suffix_quoted {form : Form} (ending : form.text <:+ (quoted name value).text) :
    form.text = (quoted name value).text := by
  have closing : ['"', ']'] <:+ (quoted name value).text :=
    ⟨quotedFront name ++ '"' :: value.text, by simp [text_quoted]⟩
  have long : ['"', ']'].length ≤ form.text.length := by
    simp only [Form.text, List.length_cons, List.length_append, List.length_nil]
    omega
  obtain ⟨front, closed⟩ := List.suffix_of_suffix_length_le closing ending long
  obtain ⟨before, whole⟩ := ending
  have split : quotedFront name ++ '"' :: value.text = before ++ front := by
    apply (List.append_left_inj ['"', ']']).mp
    rw [List.append_assoc before, closed, whole]
    simp [text_quoted]
  obtain ⟨opening, behind, parted⟩ := List.append_of_mem (Form.quote_mem closed.symm)
  rw [parted, ← List.append_assoc] at split
  have fronts : quotedFront name = before ++ opening :=
    ((List.append_cons_inj_of_notMem (quote_not_mem_quotedFront name)
      (value.not_mem '"' (by decide))).mp split).1
  have begins : ∃ rest, opening = '[' :: rest := by
    cases opening with
    | nil =>
      rw [parted, List.nil_append, Form.text] at closed
      cases closed
    | cons first rest =>
      rw [parted, List.cons_append, Form.text, List.cons_append, List.cons.injEq] at closed
      exact ⟨rest, by rw [closed.1]⟩
  obtain ⟨rest, rfl⟩ := begins
  cases before with
  | nil => exact whole
  | cons first others =>
    rw [quotedFront, List.cons_append, List.cons.injEq] at fronts
    have inside : '[' ∈ name.text ++ ['='] := by simp [fronts.2]
    simp [name.not_mem '[' (by decide)] at inside

/-- Of a proper ending of a quoted clause a bracket is left when clauses are taken out. -/
theorem closing_mem_of_takenOut {text left : List Char} {forms : List Form}
    (takenOut : TakenOut text forms left) (ending : text <:+ (quoted name value).text)
    (filled : text ≠ []) (shorter : text.length < (quoted name value).text.length) :
    ']' ∈ left := by
  induction takenOut with
  | nil => exact absurd rfl filled
  | @form form behind left forms later ih =>
    by_cases nothing : behind = []
    · rw [nothing, List.append_nil] at ending shorter
      rw [eq_of_suffix_quoted name value ending] at shorter
      exact absurd shorter (Nat.lt_irrefl _)
    · rw [List.length_append] at shorter
      exact ih ((List.suffix_append _ _).trans ending) nothing (by omega)
  | @left character behind left forms formless later ih =>
    by_cases nothing : behind = []
    · have last : character = ']' := by
        rw [nothing] at ending
        have same := ending.getLast (List.cons_ne_nil _ _)
        simpa [text_quoted] using same
      rw [last]
      exact List.mem_cons_self
    · rw [List.length_cons] at shorter
      exact List.mem_cons_of_mem _
        (ih ((List.suffix_cons _ _).trans ending) nothing (by omega))

/-- A cursor has a quoted clause in front of it as it is. -/
theorem remaining_ofSelector_quoted :
    (Cursor.ofSelector (String.ofList (quoted name value).text)).remaining =
      (quoted name value).text := by
  have starts : Text.trimStart (quoted name value).text = (quoted name value).text :=
    Text.Stops.dropWhile_eq (Text.stops_cons (by decide))
  have ends : (quoted name value).text =
      (quotedFront name ++ '"' :: (value.text ++ ['"'])) ++ [']'] := by simp [text_quoted]
  rw [Cursor.ofSelector, String.toList_ofList, Text.trim, starts, ends]
  exact Text.dropEndWhile_append_singleton (by decide) _

/-- A quoted clause that is a token is all that a cursor hands out. -/
theorem segments_ofSelector_quoted (whole : isToken (quoted name value).text) :
    (Cursor.ofSelector (String.ofList (quoted name value).text)).segments =
      [.ok (.token (quoted name value).text)] := by
  have split : splitToken? (quoted name value).text = some ([], (quoted name value).text) :=
    if_pos whole
  have taken : (Cursor.ofSelector (String.ofList (quoted name value).text)).takeToken =
      (.ok (quoted name value).text, ⟨[], .combinator, false⟩) := by
    rw [Cursor.takeToken, remaining_ofSelector_quoted, split]
    rfl
  rw [Cursor.segments_of_takeToken rfl rfl taken, Cursor.segments_of_exhausted rfl rfl]

/-- A quoted clause is read as the comparison with its value alone. -/
theorem outcome_parse_quoted : (Compound.parse (quoted name value).text).outcome =
    .ok ⟨⟨.any, none, []⟩, [.attributeTest (quoted name value).test]⟩ := by
  let account : Account := ⟨[(quoted name value).form], .absent, []⟩
  have isOf : account.Of (quoted name value).text := by
    refine ⟨?_, Text.stops_nil, trivial⟩
    have taken := TakenOut.form (quoted name value).form .nil
    rwa [List.append_nil, text_form] at taken
  rw [isOf.outcome_parse, ← test_form]
  rfl

/-- An ending of a quoted clause that is not the whole of it is malformed. -/
theorem outcome_parse_of_suffix_quoted {token : List Char}
    (ending : token <:+ (quoted name value).text) (filled : token ≠ [])
    (shorter : token.length < (quoted name value).text.length) :
    (Compound.parse token).outcome = .error (.malformed (String.ofList token)) := by
  obtain ⟨forms, left, takenOut⟩ := exists_takenOut token
  have closing := closing_mem_of_takenOut name value takenOut ending filled shorter
  have kept : ']' ∈ withoutAttributes token := by
    rwa [withoutAttributes, Text.Piece.without, takenOut.cut_eq]
  exact outcome_parse_of_bracket kept (by decide)

end WrittenClause

/-- Selecting by a quoted clause that is no token is malformed. -/
theorem Host.selectBelow_quoted_malformed {ν : Type} [DecidableEq ν] (host : Host ν) (scope : ν)
    (name : Text.FilledRun Compound.isNameCharacter) (value : Text.Run (· != '"'))
    (broken : ¬isToken (WrittenClause.quoted name value).text) :
    ∃ remaining, (host.selectBelow scope
      (String.ofList (WrittenClause.quoted name value).text)).outcome =
        .error (.malformed remaining) := by
  have front := WrittenClause.remaining_ofSelector_quoted name value
  unfold Host.selectBelow Cursor.takeToken
  rw [front]
  cases split : splitToken? (WrittenClause.quoted name value).text with
  | none => exact ⟨_, rfl⟩
  | some parts =>
    obtain ⟨before, token⟩ := parts
    obtain ⟨whole, longest⟩ := splitToken?_eq_some_iff.mp split
    have isToken := isToken_of_splitToken? split
    have shorter : token.length < (WrittenClause.quoted name value).text.length := by
      refine Nat.lt_of_le_of_ne longest.ending.length_le fun same => broken ?_
      rwa [← longest.ending.eq_of_length same]
    exact ⟨String.ofList token, Diagnosed.outcome_bind_of_error
      (WrittenClause.outcome_parse_of_suffix_quoted name value longest.ending
        (ne_nil_of_isToken isToken) shorter) _⟩

/-- Whether a node of a tree is an element with a value of an attribute. -/
def Tree.HasAttribute (tree : Tree) (id : NodeId) (name value : String) : Prop :=
  ∃ tag attributes, tree.content id = some (.element tag attributes) ∧
    attributes.get? name = some value

/-- A quoted clause accepts the elements with its value. -/
theorem Tree.accepts_quoted_iff (tree : Tree) (name : Text.FilledRun Compound.isNameCharacter)
    (value : Text.Run (· != '"')) (id : NodeId) :
    Compound.accepts ⟨⟨.any, none, []⟩, [.attributeTest (WrittenClause.quoted name value).test]⟩
        tree.view id ↔
      tree.HasAttribute id (String.ofList name.text) (String.ofList value.text) := by
  have test : (WrittenClause.quoted name value).test =
      ⟨.equals, String.ofList name.text, some (String.ofList value.text)⟩ := rfl
  rw [test, HasAttribute]
  simp only [Compound.accepts, Filter.accepts, Compound.predicatesAccept, Predicate.accepts,
    AttributeTest.accepts, view, List.all_cons, List.all_nil]
  generalize tree.content id = held
  cases held with
  | none => simp
  | some content =>
    cases content with
    | document | text data | comment data => simp [Content.kind]
    | element tag attributes =>
      cases found : attributes.get? (String.ofList name.text) with
      | none => simp [Content.attributes?, found]
      | some found =>
        simp [Content.kind, Content.tag?, Content.attributes?, TagTest.accepts, found,
          AttributeOperator.holds, String.ext_iff]

/-- A clause that compares an attribute with a value in double quotes, alone, selects the elements
below the root that have the value, in document order and each once, when the value leaves the
reading of a token inside the clause. Any other value makes the selector malformed. -/
theorem Tree.select_quoted {tree : Tree} (noCircles : tree.view.NoCircles)
    (name : Text.FilledRun Compound.isNameCharacter) (value : Text.Run (· != '"')) :
    (Token.run .clause value.text = some .clause →
      ∃ selected order,
        (tree.host.select (String.ofList (WrittenClause.quoted name value).text)).outcome =
          .ok selected ∧
        Walk.DocumentOrder tree.children (tree.children root) order ∧
        selected.Sublist order.eraseDups ∧ selected.Nodup ∧
        ∀ id, id ∈ selected ↔ tree.view.Below root id ∧
          tree.HasAttribute id (String.ofList name.text) (String.ofList value.text)) ∧
    (Token.run .clause value.text ≠ some .clause →
      ∃ remaining,
        (tree.host.select (String.ofList (WrittenClause.quoted name value).text)).outcome =
          .error (.malformed remaining)) := by
  have whole := Token.isToken_quoted_iff name value
  constructor
  · intro back
    have read := Query.outcome_parse_of_segments
      (WrittenClause.segments_ofSelector_quoted name value (whole.mpr back))
      (WrittenClause.outcome_parse_quoted name value) .nil
    obtain ⟨selected, order, selects, ordered, sublist, distinct, members⟩ :=
      tree.host.exists_selected_of_subject noCircles root read
    refine ⟨selected, order, selects, ordered, sublist, distinct, fun id => ?_⟩
    rw [members, ← tree.accepts_quoted_iff]
    rfl
  · exact fun lost =>
      tree.host.selectBelow_quoted_malformed root name value (mt whole.mp lost)

/-- A document with a paragraph that has a title. -/
def Tree.titled (title : String) : Tree :=
  Tree.empty.add 0 (.element "p" (.ofPairs [("title", title)]))

/-- A bracket that closes the clause does no harm where another one opens. -/
example : ((Tree.titled "a] [b").host.select "[title=\"a] [b\"]").outcome =
      .error (.malformed "[b\"]") ∧
    ((Tree.titled "a][b").host.select "[title=\"a][b\"]").outcome = .ok [1] := by
  constructor <;> decide +kernel

/-- A title with combinators and parentheses in it. -/
theorem Tree.select_quoted_combinators :
    (titled "(x) > y").view.NoCircles ∧
    Token.run .clause "(x) > y".toList = some .clause ∧
    ∃ selected order,
      ((titled "(x) > y").host.select "[title=\"(x) > y\"]").outcome = .ok selected ∧
      Walk.DocumentOrder (titled "(x) > y").children ((titled "(x) > y").children root) order ∧
      selected.Sublist order.eraseDups ∧ selected.Nodup ∧
      ∀ id, id ∈ selected ↔ (titled "(x) > y").view.Below root id ∧
        (titled "(x) > y").HasAttribute id "title" "(x) > y" := by
  have noCircles : (titled "(x) > y").view.NoCircles := noCircles_of_linksForward (by decide)
  have back : Token.run .clause "(x) > y".toList = some .clause := by decide
  exact ⟨noCircles, back, (select_quoted noCircles
    (.ofText "title".toList (by decide) (by decide)) (.ofText "(x) > y".toList (by decide))).1 back⟩

/-- A title with a closing bracket in it cannot be asked for. -/
theorem Tree.select_quoted_bracket :
    (titled "a]b").view.NoCircles ∧ (titled "a]b").view.Below root 1 ∧
    (titled "a]b").HasAttribute 1 "title" "a]b" ∧
    ((titled "a]b").host.select "[title=\"a]b\"]").outcome =
      .error (.malformed "[title=\"a]b\"]") := by
  refine ⟨noCircles_of_linksForward (by decide), .single ?_, ⟨"p", _, rfl, by decide⟩,
    by decide +kernel⟩
  decide

end TreeQuery
