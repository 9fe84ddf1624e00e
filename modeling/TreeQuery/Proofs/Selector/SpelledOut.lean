import TreeQuery.Proofs.Selector.Equivalents
/-!
# Classes and ids spelled out

A class is a word of the attribute `class` and an id is the value of the attribute `id`, so each can
be spelled out as an attribute clause (`WrittenPart.SpelledOut`). The clause is asked of a node by
another part of a compound selector than the name was, behind the filter instead of in it. What the
whole asks of a node is told part by part (`WrittenCompound.accepts_compound`), so a compound
selector that is spelled out accepts the same nodes (`WrittenCompound.SpelledOut.outcomesAgree`).
The filter is another one, though, and so is the nearest node that passes it: that does not count
only where a combinator looks at one node alone (`Combinator.isDirect`).
-/
namespace TreeQuery

/-- A character of a tag, an id or a class is neither a bracket nor a parenthesis. -/
theorem Compound.isArgumentCharacter_of_isNameCharacter {character : Char}
    (name : isNameCharacter character) : PseudoClass.isArgumentCharacter character := by
  have opening : character ≠ '(' := ne_of_isNameCharacter name rfl
  have closing : character ≠ ')' := ne_of_isNameCharacter name rfl
  simp [PseudoClass.isArgumentCharacter, opening, closing,
    isBracket_eq_false_of_isNameCharacter name]

/-- A name as a value without quotes. -/
def AttributeClause.WrittenValue.ofName (name : Text.FilledRun Compound.isNameCharacter) :
    WrittenValue :=
  .bare (name.toRun.imp fun _ inside =>
    isBareCharacter_of_isNameCharacter (isNameCharacter_of_compound inside))

namespace WrittenClause

/-- The clause that spells a class out: it is a word of the attribute `class`. -/
def ofClass (name : Text.FilledRun Compound.isNameCharacter) : WrittenClause :=
  comparing (.ofText "class".toList (by decide) (by decide)) .includes
    AttributeOperator.includes_ne_present (.ofName name)

/-- The clause that spells an id out: it is the value of the attribute `id`. -/
def ofId (name : Text.FilledRun Compound.isNameCharacter) : WrittenClause :=
  comparing (.ofText "id".toList (by decide) (by decide)) .equals
    AttributeOperator.equals_ne_present (.ofName name)

/-- A clause that compares with a name holds neither brackets nor parentheses in its value. -/
theorem isPlain_comparing_ofName (key : Text.FilledRun AttributeClause.isNameCharacter)
    {operator : AttributeOperator} (compares : operator ≠ .present)
    (name : Text.FilledRun Compound.isNameCharacter) :
    (comparing key operator compares (.ofName name)).IsPlain := by
  rintro _ ⟨⟩ character inside
  change character ∈ (String.ofList name.text).toList at inside
  have listed : character ∈ name.text := by rwa [String.toList_ofList] at inside
  exact Compound.isArgumentCharacter_of_isNameCharacter (name.holds character listed)

example : (ofClass (.ofText "menu".toList (by decide) (by decide))).text =
    "[class~=menu]".toList := rfl

end WrittenClause

namespace WrittenPart

/-- A part is written with a character at least. -/
theorem text_ne_nil (part : WrittenPart) : part.text ≠ [] := by
  cases part <;> exact List.cons_ne_nil _ _

/-- Whether a node has what a part writes, a pseudo-class apart. -/
def asks {ν : Type} (view : TreeView ν) (node : ν) : WrittenPart → Bool
  | className name => (view.attributeWords node "class").contains (String.ofList name.text)
  | id name => view.attributeOf node "id" == some (String.ofList name.text)
  | clause value => value.test.accepts view node
  | pseudo _ => true

/-- A node has what parts write when it has their ids, their classes and passes their tests. -/
theorem forall_asks_iff {ν : Type} (view : TreeView ν) (node : ν) (parts : List WrittenPart) :
    (∀ part ∈ parts, part.asks view node) ↔
      (∀ id ∈ parts.filterMap (nameBehind? '#'), view.attributeOf node "id" == some id) ∧
      (∀ name ∈ parts.filterMap (nameBehind? '.'),
        (view.attributeWords node "class").contains name) ∧
      ∀ test ∈ parts.filterMap test?, test.accepts view node := by
  induction parts with
  | nil => simp
  | cons part others ih =>
    rw [List.forall_mem_cons, ih]
    cases part with
    | id name =>
      simp only [List.filterMap_cons, nameBehind?, test?, asks, Char.reduceEq, ↓reduceIte,
        List.forall_mem_cons, and_assoc]
    | className name =>
      simp only [List.filterMap_cons, nameBehind?, test?, asks, Char.reduceEq, ↓reduceIte,
        List.forall_mem_cons, and_assoc, and_left_comm]
    | clause value =>
      simp only [List.filterMap_cons, nameBehind?, test?, asks, List.forall_mem_cons,
        and_left_comm]
    | pseudo value => simp only [List.filterMap_cons, nameBehind?, test?, asks, true_and]

/-- A part is spelled out when a clause stands for its class or its id. -/
inductive SpelledOut : WrittenPart → WrittenPart → Prop
  /-- The part is kept. -/
  | kept (part : WrittenPart) : SpelledOut part part
  /-- A clause stands for the class. -/
  | className (name : Text.FilledRun Compound.isNameCharacter) :
    SpelledOut (.className name) (.clause (.ofClass name))
  /-- A clause stands for the id. -/
  | id (name : Text.FilledRun Compound.isNameCharacter) :
    SpelledOut (.id name) (.clause (.ofId name))

namespace SpelledOut

variable {part other : WrittenPart} (spelled : part.SpelledOut other)

include spelled

/-- What a part asks of a node does not change when it is spelled out. -/
theorem asks_eq {ν : Type} (view : TreeView ν) (node : ν) :
    part.asks view node = other.asks view node := by
  cases spelled with
  | kept => rfl
  | className name =>
    change (view.attributeWords node "class").contains _ =
      AttributeTest.accepts ⟨.includes, "class", some (String.ofList name.text)⟩ view node
    rw [AttributeTest.accepts, TreeView.attributeWords]
    cases view.attributeOf node "class" with
    | none => rfl
    | some value =>
      rw [Bool.eq_iff_iff]
      simp [AttributeOperator.holds, String.ofList_inj]
  | id name =>
    change (view.attributeOf node "id" == some _) =
      AttributeTest.accepts ⟨.equals, "id", some (String.ofList name.text)⟩ view node
    rw [AttributeTest.accepts]
    cases view.attributeOf node "id" with
    | none => rfl
    | some value =>
      rw [Bool.eq_iff_iff]
      simp [AttributeOperator.holds, String.ext_iff]

/-- A pseudo-class is kept. -/
theorem pseudo?_eq : part.pseudo? = other.pseudo? := by
  cases spelled <;> rfl

/-- A plain part is spelled out as a plain part. -/
theorem isPlain (plain : part.IsPlain) : other.IsPlain := by
  cases spelled with
  | kept => exact plain
  | className name | id name => exact WrittenClause.isPlain_comparing_ofName _ _ name

end SpelledOut

end WrittenPart

/-- Compound selectors accept alike when they accept the same nodes of every tree. -/
def Compound.AcceptsAlike (compound other : Compound) : Prop :=
  ∀ {ν : Type} (view : TreeView ν) (node : ν), compound.accepts view node = other.accepts view node

/-- A compound selector with at most one id is spelled out when the front is kept and each part is
kept or spelled out. -/
structure WrittenCompound.SpelledOut (written other : WrittenCompound) : Prop where
  /-- At most one id is written. -/
  single : written.ids.length ≤ 1
  /-- The front is kept. -/
  head : written.head = other.head
  /-- Each part is kept or spelled out. -/
  parts : List.Forall₂ WrittenPart.SpelledOut written.parts other.parts

namespace WrittenCompound

/-- A node has what the parts of a compound selector write when it has its ids, its classes and
passes its tests. -/
theorem forall_asks_iff {ν : Type} (view : TreeView ν) (node : ν) (written : WrittenCompound) :
    (∀ part ∈ written.parts, part.asks view node) ↔
      (∀ id ∈ written.ids, view.attributeOf node "id" == some id) ∧
      (∀ name ∈ written.classes, (view.attributeWords node "class").contains name) ∧
      ∀ test ∈ written.tests, test.accepts view node :=
  WrittenPart.forall_asks_iff view node written.parts

/-- With at most one id, a compound selector accepts the elements with its tag that have what each
part writes. -/
theorem accepts_compound {written : WrittenCompound} (single : written.ids.length ≤ 1)
    (pseudos : List PseudoClass) {ν : Type} (view : TreeView ν) (node : ν) :
    (written.compound pseudos).accepts view node ↔
      view.kind node == .element ∧ (view.tagName node).any written.head.test.accepts ∧
      (∀ part ∈ written.parts, part.asks view node) ∧
      ∀ pseudo ∈ pseudos, pseudo.accepts view node := by
  have only : written.ids.head?.all (view.attributeOf node "id" == some ·) =
      written.ids.all (view.attributeOf node "id" == some ·) := by
    cases listed : written.ids with
    | nil => rfl
    | cons id others =>
      rw [listed, List.length_cons] at single
      have alone : others = [] := List.length_eq_zero_iff.mp (by omega)
      simp [alone]
  simp only [WrittenCompound.compound, Compound.accepts, Compound.predicatesAccept, Filter.accepts,
    only, Bool.and_eq_true, List.all_append, List.all_map, Function.comp_def, Predicate.accepts,
    List.all_eq_true, List.mem_eraseDups, written.forall_asks_iff, and_assoc]

namespace SpelledOut

variable {written other : WrittenCompound} (spelled : written.SpelledOut other)

include spelled

/-- No id is added when a compound selector is spelled out. -/
theorem ids_sublist : other.ids.Sublist written.ids := by
  obtain ⟨head, parts⟩ := written
  obtain ⟨otherHead, others⟩ := other
  have listed : List.Forall₂ WrittenPart.SpelledOut parts others := spelled.parts
  change (others.filterMap _).Sublist (parts.filterMap _)
  clear spelled
  induction listed with
  | nil => exact .slnil
  | @cons part _ _ _ first _ ih =>
    cases first with
    | kept =>
      rw [List.filterMap_cons, List.filterMap_cons]
      cases part.nameBehind? '#' with
      | none => exact ih
      | some id => exact ih.cons_cons id
    | className name => exact ih
    | id name => exact ih.cons _

/-- With the same pseudo-classes, a compound selector that is spelled out accepts the same. -/
theorem acceptsAlike (pseudos : List PseudoClass) :
    (written.compound pseudos).AcceptsAlike (other.compound pseudos) := by
  intro ν view node
  have single : other.ids.length ≤ 1 := Nat.le_trans spelled.ids_sublist.length_le spelled.single
  have answers : written.parts.map (WrittenPart.asks view node) =
      other.parts.map (WrittenPart.asks view node) := by
    rw [← List.forall₂_eq_eq_eq, List.forall₂_map_left_iff, List.forall₂_map_right_iff]
    exact spelled.parts.imp fun _ _ part => part.asks_eq view node
  have asked : (∀ part ∈ written.parts, part.asks view node) ↔
      ∀ part ∈ other.parts, part.asks view node := by
    rw [← List.forall_mem_map (P := fun answer => answer = true), answers, List.forall_mem_map]
  rw [Bool.eq_iff_iff, accepts_compound spelled.single, accepts_compound single, spelled.head, asked]

/-- A compound selector that is spelled out is read as one that accepts the same nodes, or neither
can be read. -/
theorem outcomesAgree : OutcomesAgree Compound.AcceptsAlike (Compound.parse written.text).outcome
    (Compound.parse other.text).outcome := by
  have single : other.ids.length ≤ 1 := Nat.le_trans spelled.ids_sublist.length_le spelled.single
  have pseudos : written.pseudos = other.pseudos :=
    filterMap_eq_of_forall₂ spelled.parts fun _ _ part => part.pseudo?_eq
  rw [outcome_parse_text, outcome_parse_text, pseudos]
  cases other.pseudos.mapM WrittenPseudo.meaning with
  | error error => exact .error error error
  | ok values =>
    simp only [Nat.not_lt.mpr spelled.single, Nat.not_lt.mpr single, ↓reduceIte]
    exact .ok (spelled.acceptsAlike values)

/-- A compound selector that has a character has one when it is spelled out. -/
theorem text_ne_nil (filled : written.text ≠ []) : other.text ≠ [] := by
  intro empty
  obtain ⟨noHead, noParts⟩ := List.append_eq_nil_iff.mp empty
  apply filled
  rw [text, spelled.head, noHead, List.nil_append]
  have listed := spelled.parts
  cases others : other.parts with
  | nil =>
    rw [others, List.forall₂_nil_right_iff] at listed
    rw [listed, List.flatMap_nil]
  | cons part later =>
    rw [others, List.flatMap_cons, List.append_eq_nil_iff] at noParts
    exact absurd noParts.1 part.text_ne_nil

/-- A compound selector of plain parts is spelled out with plain parts. -/
theorem isPlain (plain : ∀ part ∈ written.parts, part.IsPlain) :
    ∀ part ∈ other.parts, part.IsPlain := by
  have listed := spelled.parts
  generalize written.parts = parts, other.parts = others at listed plain ⊢
  induction listed with
  | nil => exact plain
  | cons first _ ih =>
    rw [List.forall_mem_cons] at plain ⊢
    exact ⟨first.isPlain plain.1, ih plain.2⟩

end SpelledOut

end WrittenCompound

/-- A token that is spelled out is a token. -/
def WrittenToken.spelledOut (token : WrittenToken) {other : WrittenCompound}
    (spelled : token.toWrittenCompound.SpelledOut other) : WrittenToken where
  toWrittenCompound := other
  filled := spelled.text_ne_nil token.filled
  plain := spelled.isPlain token.plain

/-- Whether a relation looks at one node alone, and not for the nearest of several. -/
def Relation.isDirect : Relation → Bool
  | .descendant => false
  | .child => true
  | .adjacent => true

/-- Whether a combinator looks at one node alone, and not for the nearest of several. -/
def Combinator.isDirect (combinator : Combinator) : Bool :=
  combinator.relation?.any Relation.isDirect

/-- A token is kept, or spelled out where it may be. -/
inductive CleanToken.SpelledOut : Bool → CleanToken → CleanToken → Prop
  /-- The token is kept, whatever it is. -/
  | kept {direct : Bool} (token : CleanToken) : SpelledOut direct token token
  /-- A compound selector is spelled out. -/
  | spelled {token : WrittenToken} {other : WrittenCompound}
    (spelled : token.toWrittenCompound.SpelledOut other) :
    SpelledOut true token.clean (token.spelledOut spelled).clean

/-- A selector is spelled out when tokens of it are with a combinator behind them that looks at one
node alone, and the rightmost one if it may be. -/
inductive WrittenSelector.SpelledOut : Bool → WrittenSelector → WrittenSelector → Prop
  /-- A token alone. -/
  | token {direct : Bool} {first second : CleanToken}
    (last : CleanToken.SpelledOut direct first second) :
    SpelledOut direct (.token first) (.token second)
  /-- A selector with a separator and a token behind it. -/
  | step {direct : Bool} {left other : WrittenSelector} {separator : Separator}
    {first second : CleanToken} (before : SpelledOut separator.combinator.isDirect left other)
    (last : CleanToken.SpelledOut direct first second) :
    SpelledOut direct (.step left separator first) (.step other separator second)

end TreeQuery
