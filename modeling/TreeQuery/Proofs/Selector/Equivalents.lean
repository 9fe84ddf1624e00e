import Mathlib.Data.List.Forall2
import Mathlib.Logic.Relation
import TreeQuery.Proofs.Selector.CountingExpressions
import TreeQuery.Proofs.Selector.WrittenToken
/-!
# Pseudo-classes in other words

Some pseudo-classes ask for the same in other words: the first child is the one at place one, the
odd places and the even ones are those in steps of two, and steps may be counted from any of the
places they lead to (`WrittenPseudo.Restates`). On a node that is content, one accepts what the
other does. Compound selectors that differ only in such words are read as ones that accept the same
content, or both fail (`WrittenCompound.Equivalent.outcomesAgree`).
-/
namespace TreeQuery

/-- Two results are failures both, or values that agree. -/
inductive OutcomesAgree {ε α β : Type} (agree : α → β → Prop) : Except ε α → Except ε β → Prop
  /-- Both are failures, for whatever reasons. -/
  | error (first second : ε) : OutcomesAgree agree (.error first) (.error second)
  /-- Both are values, and these agree. -/
  | ok {value : α} {other : β} (agrees : agree value other) :
    OutcomesAgree agree (.ok value) (.ok other)

namespace OutcomesAgree

variable {ε α β γ δ : Type} {agree : α → β → Prop} {agreeLater : γ → δ → Prop}

/-- Results that agree still do when they go on alike from values that agree. -/
theorem bind {first : Except ε α} {second : Except ε β}
    (outcomes : OutcomesAgree agree first second)
    {later : α → Except ε γ} {otherLater : β → Except ε δ}
    (goesOn : ∀ value other, agree value other →
      OutcomesAgree agreeLater (later value) (otherLater other)) :
    OutcomesAgree agreeLater (first >>= later) (second >>= otherLater) := by
  cases outcomes with
  | error first second => exact .error first second
  | ok agrees => exact goesOn _ _ agrees

/-- Results of lists agree when their items have results that agree, one by one. -/
theorem mapM {items : List α} {others : List β} (listed : List.Forall₂ agree items others)
    {read : α → Except ε γ} {otherRead : β → Except ε δ}
    (reads : ∀ item other, agree item other →
      OutcomesAgree agreeLater (read item) (otherRead other)) :
    OutcomesAgree (List.Forall₂ agreeLater) (items.mapM read) (others.mapM otherRead) := by
  induction listed with
  | nil => exact .ok .nil
  | cons head _ ih =>
    rw [List.mapM_cons, List.mapM_cons]
    exact (reads _ _ head).bind fun _ _ first => ih.bind fun _ _ later => .ok (.cons first later)

/-- Results agree when they are made from values that agree. -/
theorem map {first : Except ε α} {second : Except ε β}
    (outcomes : OutcomesAgree agree first second)
    {make : α → γ} {otherMake : β → δ}
    (makes : ∀ value other, agree value other → agreeLater (make value) (otherMake other)) :
    OutcomesAgree agreeLater (first.map make) (second.map otherMake) := by
  cases outcomes with
  | error first second => exact .error first second
  | ok agrees => exact .ok (makes _ _ agrees)

/-- Results agree in what is made from their values when that agrees. -/
theorem of_map {first : Except ε α} {second : Except ε β} {make : α → γ} {otherMake : β → δ}
    (outcomes : OutcomesAgree agreeLater (first.map make) (second.map otherMake)) :
    OutcomesAgree (fun value other => agreeLater (make value) (otherMake other)) first second := by
  cases first <;> cases second <;> cases outcomes
  · exact .error _ _
  · exact .ok ‹_›

/-- Agreeing is an equivalence of results when it is one of values. -/
theorem equivalence {agree : α → α → Prop} (values : Equivalence agree) :
    Equivalence (OutcomesAgree agree : Except ε α → Except ε α → Prop) where
  refl first := by
    cases first with
    | error error => exact .error error error
    | ok value => exact .ok (values.refl value)
  symm outcomes := by
    cases outcomes with
    | error first second => exact .error second first
    | ok agrees => exact .ok (values.symm agrees)
  trans outcomes later := by
    cases outcomes with
    | error first _ =>
      cases later with
      | error _ third => exact .error first third
    | ok agrees =>
      cases later with
      | ok agreesLater => exact .ok (values.trans agrees agreesLater)

/-- Of results that agree as the same, both are a value or neither. -/
theorem ok_iff {first second : Except ε α} (outcomes : OutcomesAgree Eq first second) (value : α) :
    first = .ok value ↔ second = .ok value := by
  cases outcomes with
  | error first second => exact ⟨nofun, nofun⟩
  | ok same => rw [same]

end OutcomesAgree

/-- Places counted in steps from one offset are those counted from another, when whole steps lead
from one to the other. -/
theorem Nth.picks_of_dvd {step : Nat} {offset other : Int} (whole : (step : Int) ∣ offset - other)
    (index : Nat) : (formula (some step) (some offset)).picks index =
      (formula (some step) (some other)).picks index := by
  have apart : (index - offset : Int) - (index - other) = -(offset - other) := by omega
  have shifted : (step : Int) ∣ index - offset ↔ (step : Int) ∣ index - other :=
    Int.dvd_iff_dvd_of_dvd_sub (apart ▸ Int.dvd_neg.mpr whole)
  simp only [picks, beq_eq_decide, ← Int.dvd_iff_emod_eq_zero, shifted]

/-- Pseudo-classes are equivalent when the same nodes that are content have them. -/
def PseudoClass.Equivalent (pseudo other : PseudoClass) : Prop :=
  ∀ {ν : Type} (view : TreeView ν) (node : ν), view.isSignificant node →
    pseudo.accepts view node = other.accepts view node

namespace PseudoClass

/-- Being equivalent is an equivalence of pseudo-classes. -/
theorem equivalence : Equivalence Equivalent where
  refl _ _ _ _ _ := rfl
  symm equivalent _ view node content := (equivalent view node content).symm
  trans equivalent later _ view node content :=
    (equivalent view node content).trans (later view node content)

/-- The first child is the one at place one. -/
theorem firstChild_equivalent : firstChild.Equivalent (nthChild (.formula none (some 1))) := by
  intro ν view node content
  rw [Bool.eq_iff_iff, accepts, accepts, view.isFirst_iff, if_pos content, Nth.picks, beq_iff_eq]
  exact Int.ofNat_inj.symm

/-- Counting by expressions that pick the same places is equivalent. -/
theorem nthChild_equivalent {nth other : Nth}
    (same : ∀ index, nth.picks index = other.picks index) :
    (nthChild nth).Equivalent (nthChild other) :=
  fun view node _ => same (view.position node)

end PseudoClass

namespace WrittenPseudo

/-- A pseudo-class is written as the first child, by its name alone. -/
def IsFirstChild (pseudo : WrittenPseudo) : Prop :=
  pseudo.smallName = "first-child" ∧ pseudo.argument = none

/-- A pseudo-class is written as the counting one, with an argument that writes an expression when
its blanks are left out and its letters are small. -/
def Counts (pseudo : WrittenPseudo) (nth : Nth) : Prop :=
  pseudo.smallName = "nth-child" ∧ ∃ argument, pseudo.argument = some argument ∧
    ∃ written : WrittenNth, written.text = Nth.compact argument.text ∧ written.Means nth

/-- A pseudo-class says in other words what another one says. -/
inductive Restates : WrittenPseudo → WrittenPseudo → Prop
  /-- The first child is the one at place one. -/
  | first {first second : WrittenPseudo} (plain : first.IsFirstChild)
    (counted : second.Counts (.formula none (some 1))) : Restates first second
  /-- The odd places are those in steps of two from one. -/
  | odd {first second : WrittenPseudo} (word : first.Counts .odd)
    (steps : second.Counts (.formula (some 2) (some 1))) : Restates first second
  /-- The even places are those in steps of two. -/
  | even {first second : WrittenPseudo} (word : first.Counts .even)
    (steps : second.Counts (.formula (some 2) none)) : Restates first second
  /-- Steps may be counted from another place that they lead to. -/
  | shifted {first second : WrittenPseudo} {step : Nat} {offset other : Int}
    (whole : (step : Int) ∣ offset - other)
    (steps : first.Counts (.formula (some step) (some offset)))
    (otherSteps : second.Counts (.formula (some step) (some other))) : Restates first second

/-- Pseudo-classes that say the same in whatever words. -/
def Equivalent : WrittenPseudo → WrittenPseudo → Prop := Relation.EqvGen Restates

/-- What is written as the first child asks for it. -/
theorem IsFirstChild.meaning {pseudo : WrittenPseudo} (plain : pseudo.IsFirstChild) :
    pseudo.meaning = .ok .firstChild := by
  obtain ⟨name, none⟩ := plain
  simp only [WrittenPseudo.meaning, none, if_pos name]

/-- What is written as counting asks for what its argument writes. -/
theorem Counts.meaning {pseudo : WrittenPseudo} {nth : Nth} (counts : pseudo.Counts nth) :
    pseudo.meaning = .ok (.nthChild nth) := by
  obtain ⟨name, argument, some, written, same, means⟩ := counts
  simp only [WrittenPseudo.meaning, some, if_pos name, Nth.parse_of_means means same]
  rfl

/-- What is said in other words asks for the same of content. -/
theorem Restates.outcomesAgree {first second : WrittenPseudo} (restates : first.Restates second) :
    OutcomesAgree PseudoClass.Equivalent first.meaning second.meaning := by
  cases restates with
  | first plain counted =>
    rw [plain.meaning, counted.meaning]
    exact .ok PseudoClass.firstChild_equivalent
  | odd word steps =>
    rw [word.meaning, steps.meaning]
    refine .ok (PseudoClass.nthChild_equivalent fun index => ?_)
    rw [Nth.picks, Nth.picks, Bool.eq_iff_iff, beq_iff_eq, beq_iff_eq]
    omega
  | even word steps =>
    rw [word.meaning, steps.meaning]
    exact .ok (PseudoClass.nthChild_equivalent fun index => rfl)
  | shifted whole steps otherSteps =>
    rw [steps.meaning, otherSteps.meaning]
    exact .ok (PseudoClass.nthChild_equivalent (Nth.picks_of_dvd whole))

/-- Equivalent pseudo-classes ask for the same of content, or neither can be read. -/
theorem Equivalent.outcomesAgree {first second : WrittenPseudo}
    (equivalent : first.Equivalent second) :
    OutcomesAgree PseudoClass.Equivalent first.meaning second.meaning := by
  induction equivalent with
  | rel first second restates => exact restates.outcomesAgree
  | refl pseudo => exact (OutcomesAgree.equivalence PseudoClass.equivalence).refl _
  | symm first second _ ih => exact (OutcomesAgree.equivalence PseudoClass.equivalence).symm ih
  | trans first second third _ _ ih later =>
    exact (OutcomesAgree.equivalence PseudoClass.equivalence).trans ih later

end WrittenPseudo

/-- Parts are equivalent when they are the same, or pseudo-classes that say the same. -/
inductive WrittenPart.Equivalent : WrittenPart → WrittenPart → Prop
  /-- The part is kept. -/
  | same (part : WrittenPart) : Equivalent part part
  /-- The pseudo-class is exchanged. -/
  | pseudo {first second : WrittenPseudo} (equivalent : first.Equivalent second) :
    Equivalent (.pseudo first) (.pseudo second)

namespace WrittenPart.Equivalent

variable {first second : WrittenPart} (equivalent : first.Equivalent second)

include equivalent

/-- Equivalent parts write the same attribute test. -/
theorem test?_eq : first.test? = second.test? := by
  cases equivalent <;> rfl

/-- Equivalent parts write the same names. -/
theorem nameBehind?_eq (mark : Char) : first.nameBehind? mark = second.nameBehind? mark := by
  cases equivalent <;> rfl

/-- Equivalent parts write equivalent pseudo-classes. -/
theorem pseudo? : Option.Rel WrittenPseudo.Equivalent first.pseudo? second.pseudo? := by
  cases equivalent with
  | same =>
    cases first.pseudo? with
    | none => exact .none
    | some pseudo => exact .some (.refl pseudo)
  | pseudo equivalent => exact .some equivalent

end WrittenPart.Equivalent

/-- What is found in lists of items is the same when it is so item by item. -/
theorem filterMap_eq_of_forall₂ {α β : Type} {related : α → α → Prop} {items others : List α}
    (listed : List.Forall₂ related items others) {find : α → Option β}
    (same : ∀ item other, related item other → find item = find other) :
    items.filterMap find = others.filterMap find := by
  induction listed with
  | nil => rfl
  | cons head _ ih => rw [List.filterMap_cons, List.filterMap_cons, same _ _ head, ih]

/-- Compound selectors are equivalent when they have the same filter and their predicates hold of
the same nodes that are content. -/
structure Compound.Equivalent (compound other : Compound) : Prop where
  /-- They ask the same of tag, id and classes. -/
  filter : compound.filter = other.filter
  /-- They ask the same of content besides. -/
  predicates : ∀ {ν : Type} (view : TreeView ν) (node : ν), view.isSignificant node →
    compound.predicatesAccept view node = other.predicatesAccept view node

/-- Written compound selectors are equivalent when they have the same front and parts that are
equivalent one by one. -/
structure WrittenCompound.Equivalent (written other : WrittenCompound) : Prop where
  /-- The front is kept. -/
  head : written.head = other.head
  /-- Each part is kept or exchanged. -/
  parts : List.Forall₂ WrittenPart.Equivalent written.parts other.parts

namespace WrittenCompound

/-- Equivalent written compound selectors have the same names behind a mark. -/
theorem Equivalent.names {written other : WrittenCompound} (equivalent : written.Equivalent other)
    (mark : Char) : written.parts.filterMap (WrittenPart.nameBehind? mark) =
      other.parts.filterMap (WrittenPart.nameBehind? mark) :=
  filterMap_eq_of_forall₂ equivalent.parts fun _ _ parts => parts.nameBehind?_eq mark

/-- With equivalent pseudo-classes, a written compound selector asks the same of content. -/
theorem Equivalent.compound {written other : WrittenCompound}
    (equivalent : written.Equivalent other)
    {pseudos others : List PseudoClass}
    (listed : List.Forall₂ PseudoClass.Equivalent pseudos others) :
    (written.compound pseudos).Equivalent (other.compound others) := by
  have tests : written.tests = other.tests :=
    filterMap_eq_of_forall₂ equivalent.parts fun _ _ parts => parts.test?_eq
  constructor
  · simp only [WrittenCompound.compound, ids, classes, equivalent.head, equivalent.names]
  · intro ν view node content
    have accepted : (pseudos.all fun pseudo => pseudo.accepts view node) =
        others.all fun pseudo => pseudo.accepts view node := by
      induction listed with
      | nil => rfl
      | cons head _ ih => rw [List.all_cons, List.all_cons, head view node content, ih]
    simp only [WrittenCompound.compound, Compound.predicatesAccept, tests, List.all_append,
      List.all_map, Function.comp_def, Predicate.accepts, accepted]

/-- Equivalent written compound selectors are read as ones that ask the same of content, or neither
can be read. -/
theorem Equivalent.outcomesAgree {written other : WrittenCompound}
    (equivalent : written.Equivalent other) :
    OutcomesAgree Compound.Equivalent (Compound.parse written.text).outcome
      (Compound.parse other.text).outcome := by
  have pseudos : List.Forall₂ WrittenPseudo.Equivalent written.pseudos other.pseudos :=
    List.rel_filterMap (fun _ _ parts => parts.pseudo?) equivalent.parts
  have ids : written.ids = other.ids := equivalent.names '#'
  rw [outcome_parse_text, outcome_parse_text, ids]
  refine (OutcomesAgree.mapM pseudos fun _ _ pseudo => pseudo.outcomesAgree).bind ?_
  intro values others listed
  by_cases several : 1 < other.ids.length
  · rw [if_pos several, if_pos several]
    exact .error _ _
  · rw [if_neg several, if_neg several]
    exact .ok (equivalent.compound listed)

end WrittenCompound

/-- Selectors as written are equivalent when they have the same separators and tokens that are
equivalent one by one. -/
inductive WrittenSelector.Equivalent : WrittenSelector → WrittenSelector → Prop
  /-- A token alone. -/
  | token {first second : WrittenToken}
    (equivalent : first.toWrittenCompound.Equivalent second.toWrittenCompound) :
    Equivalent (.token first.clean) (.token second.clean)
  /-- A selector with a separator and a token behind it. -/
  | step {left other : WrittenSelector} (before : Equivalent left other) (separator : Separator)
    {first second : WrittenToken}
    (equivalent : first.toWrittenCompound.Equivalent second.toWrittenCompound) :
    Equivalent (.step left separator first.clean) (.step other separator second.clean)

end TreeQuery
