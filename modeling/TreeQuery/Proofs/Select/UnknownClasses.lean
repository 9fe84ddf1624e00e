import TreeQuery.Proofs.Select.Contexts
import TreeQuery.Proofs.Selector.Notices
import TreeQuery.Tree.View
/-!
# Selecting by a pseudo-class that is not known

A pseudo-class that is not known is accepted and holds of no node. Wherever it stands in a selector,
nothing is selected then: the subject has no node, or some step leads nowhere, from every node
(`Query.accepts_eq_false_of_never`). A user is told so by a notice for each such pseudo-class, also
for those behind which no context is left (`selectBelow_of_writesUnknown`).
-/
namespace TreeQuery

variable {ν : Type}

/-- Whether some predicate of a compound selector holds of no node. -/
def Compound.Never (compound : Compound) (view : TreeView ν) : Prop :=
  ∀ node, compound.predicatesAccept view node = false

/-- A pseudo-class that is not known holds of no node. -/
theorem Compound.never_of_unknown {compound : Compound} {clause : String}
    (unknown : .pseudoClass (.unknown clause) ∈ compound.predicates) (view : TreeView ν) :
    compound.Never view := by
  intro node
  rw [predicatesAccept, List.all_eq_false]
  exact ⟨_, unknown, Bool.false_ne_true⟩

section Steps

variable [DecidableEq ν] {view : TreeView ν}

/-- A step to a compound selector that holds of no node leads nowhere. -/
theorem TreeView.follow_of_never {step : Step} (never : step.compound.Never view) (node : ν) :
    view.follow step node = none := by
  obtain ⟨relation, compound⟩ := step
  cases relation <;> simp [follow, never _]

/-- Steps lead nowhere when one of them does not. -/
theorem TreeView.followAll_of_never {steps : List Step} {step : Step} (listed : step ∈ steps)
    (never : step.compound.Never view) (node : ν) : view.followAll steps node = none := by
  induction steps generalizing node with
  | nil => cases listed
  | cons first later ih =>
    rw [followAll]
    rcases List.mem_cons.mp listed with rfl | behind
    · rw [follow_of_never never, Option.bind_none]
    · exact Option.bind_eq_none_iff.mpr fun met _ => ih behind met

/-- A query accepts no node when one of its compound selectors holds of none. -/
theorem Query.accepts_eq_false_of_never {query : Query} {compound : Compound}
    (listed : compound ∈ query.compounds) (never : compound.Never view) (node : ν) :
    query.accepts view node = false := by
  rcases List.mem_cons.mp listed with rfl | later
  · simp [accepts, Compound.accepts, never node]
  · obtain ⟨step, among, rfl⟩ := List.mem_map.mp later
    simp [accepts, TreeView.followAll_of_never among never node]

end Steps

/-- Whether a token of a selector writes a pseudo-class that is not known. -/
def WritesUnknown (selector clause : String) : Prop :=
  ∃ token compound, .ok (.token token) ∈ (Cursor.ofSelector selector).segments ∧
    (Compound.parse token).outcome = .ok compound ∧
    .pseudoClass (.unknown clause) ∈ compound.predicates

/-- A selector that is accepted on some tree can be read. -/
theorem Host.exists_parse_of_selectBelow [DecidableEq ν] {host : Host ν} {scope : ν}
    {selector : String} {selected : List ν}
    (accepted : (host.selectBelow scope selector).outcome = .ok selected) :
    ∃ query, (Query.parse selector).outcome = .ok query := by
  rw [outcome_selectBelow] at accepted
  cases read : (Query.parse selector).outcome with
  | ok query => exact ⟨query, rfl⟩
  | error error =>
    rw [read] at accepted
    cases accepted

/-- Selecting gives the notices that reading the selector gives, on every tree. -/
theorem Host.notices_selectBelow [DecidableEq ν] (host : Host ν) (scope : ν) (selector : String) :
    (host.selectBelow scope selector).notices = (Query.parse selector).notices := by
  rw [selectBelow_eq, Diagnosed.notices_bind]
  cases (Query.parse selector).outcome <;> simp

/-- A selector that is accepted on some tree and writes a pseudo-class that is not known selects
nothing, on any tree and below any scope. Whatever a log kept before, it then keeps the notice of
every such pseudo-class of the selector. -/
theorem selectBelow_of_writesUnknown {ν μ : Type} [DecidableEq ν] [DecidableEq μ]
    {accepting : Host μ} {place : μ} {selector : String} {found : List μ}
    (accepted : (accepting.selectBelow place selector).outcome = .ok found)
    {clause : String} (unknown : WritesUnknown selector clause) (host : Host ν) (scope : ν) :
    (host.selectBelow scope selector).outcome = .ok [] ∧
    ∀ other, WritesUnknown selector other → ∀ log : NoticeLog,
      (log.recordAll (host.selectBelow scope selector).notices).1.has
        (PseudoClass.unsupported other) := by
  obtain ⟨query, read⟩ := Host.exists_parse_of_selectBelow accepted
  constructor
  · obtain ⟨token, compound, listed, compoundRead, among⟩ := unknown
    obtain ⟨⟨other, inQuery, otherRead⟩, -⟩ := Query.reads_parse read listed
    obtain rfl : compound = other := Except.ok.inj (compoundRead.symm.trans otherRead)
    have never : compound.Never host.toTreeView := Compound.never_of_unknown among _
    have nothing : host.matched scope query = [] := by
      rw [Host.matched_eq_filter, List.filter_eq_nil_iff]
      intro node _
      rw [Query.accepts_eq_false_of_never inQuery never node]
      exact Bool.false_ne_true
    rw [Host.outcome_selectBelow, read, Except.map, nothing]
  · rintro other ⟨token, compound, listed, compoundRead, among⟩ log
    obtain ⟨-, given⟩ := Query.reads_parse read listed
    rw [Host.notices_selectBelow]
    exact NoticeLog.has_recordAll_of_mem
      (given (Compound.unsupported_mem_notices compoundRead among)) log

/-- A row of two cells, the second with a paragraph. -/
def rowOfCells : Tree :=
  (((Tree.empty.add 0 (.element "tr" .empty)).add 1 (.element "td" .empty)).add 1
    (.element "td" .empty)).add 3 (.element "p" .empty)

/-- The paragraph is selected by tags, and no more when the row and the paragraph are asked for
something that is not known. -/
theorem selectBelow_of_writesUnknown_hoveredRow :
    (Tree.empty.host.selectBelow Tree.root "tr:hover td > p:seen(once)").outcome = .ok [] ∧
    WritesUnknown "tr:hover td > p:seen(once)" "hover" ∧
    WritesUnknown "tr:hover td > p:seen(once)" "seen(once)" ∧
    (rowOfCells.host.selectBelow Tree.root "tr td > p").outcome = .ok [4] ∧
    (rowOfCells.host.selectBelow Tree.root "tr:hover td > p:seen(once)").outcome = .ok [] ∧
    ∀ other, WritesUnknown "tr:hover td > p:seen(once)" other → ∀ log : NoticeLog,
      (log.recordAll
        (rowOfCells.host.selectBelow Tree.root "tr:hover td > p:seen(once)").notices).1.has
        (PseudoClass.unsupported other) := by
  have accepted :
      (Tree.empty.host.selectBelow Tree.root "tr:hover td > p:seen(once)").outcome = .ok [] := by
    decide +kernel
  have segments : (Cursor.ofSelector "tr:hover td > p:seen(once)").segments =
      (Segment.ofParts "p:seen(once)".toList
        [(.child, "td".toList), (.descendant, "tr:hover".toList)]).map .ok := by decide +kernel
  have row : WritesUnknown "tr:hover td > p:seen(once)" "hover" :=
    ⟨"tr:hover".toList, ⟨⟨.named "tr", none, []⟩, [.pseudoClass (.unknown "hover")]⟩,
      by simp [segments, Segment.ofParts], by decide +kernel, List.mem_cons_self⟩
  have paragraph : WritesUnknown "tr:hover td > p:seen(once)" "seen(once)" :=
    ⟨"p:seen(once)".toList, ⟨⟨.named "p", none, []⟩, [.pseudoClass (.unknown "seen(once)")]⟩,
      by simp [segments, Segment.ofParts], by decide +kernel, List.mem_cons_self⟩
  have selected : (rowOfCells.host.selectBelow Tree.root "tr td > p").outcome = .ok [4] := by
    decide +kernel
  exact ⟨accepted, row, paragraph, selected,
    selectBelow_of_writesUnknown accepted row rowOfCells.host Tree.root⟩

end TreeQuery
