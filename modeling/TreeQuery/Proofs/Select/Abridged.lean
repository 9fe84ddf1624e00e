import TreeQuery.Proofs.Select.Carried
import TreeQuery.Proofs.Selector.Segments
import TreeQuery.Proofs.TreeView.Abridged
/-!
# Selecting in abridged trees

A query accepts a node of an abridged tree where it accepts the node in the whole tree, if the tree
does not leave out what the query asks about: content after a node, for the pseudo-class of last
children, and the siblings just before nodes, for adjacent steps (`Query.Unaffected`). Then it
selects what it selects in the whole tree, less the nodes left out (`matched_eq_filter_kept`).
-/
namespace TreeQuery

namespace TreeView

variable {ν : Type}

/-- What a query asks of the nodes kept in an abridged tree does not depend on those left out. -/
structure Unaffected (other view : TreeView ν) (kept : ν → Bool) (query : Query) : Prop where
  /-- If the query asks for last children, the nodes kept that are last are so in both trees. -/
  last : ∀ compound ∈ query.compounds, .pseudoClass .lastChild ∈ compound.predicates →
    ∀ node, kept node → other.isLast node = view.isLast node
  /-- If the query asks for siblings just before, those of nodes kept are so in both trees. -/
  adjacent : ∀ step ∈ query.steps, step.relation = .adjacent →
    Walk.Carries {node | kept node} id view.previous other.previous

namespace Abridges

variable [DecidableEq ν] {other view : TreeView ν} {kept : ν → Bool}
  (abridges : other.Abridges view kept) (noCircles : view.NoCircles)
  (noCirclesOther : other.NoCircles) {query : Query} (unaffected : other.Unaffected view kept query)

include abridges noCircles noCirclesOther unaffected

/-- A step leads from a node kept to the same node in both trees. -/
theorem follow {step : Step} (listed : step ∈ query.steps) :
    Walk.Carries {node | kept node} id (view.follow step) (other.follow step) := by
  have written : step.compound ∈ query.compounds :=
    List.mem_cons_of_mem _ (List.mem_map_of_mem listed)
  have filters : ∀ node ∈ {node | kept node}, step.compound.filter.accepts other (id node) =
      step.compound.filter.accepts view node :=
    fun node known => (abridges.alike node known).filter_accepts step.compound.filter
  refine .follow (Set.injOn_id _) step ?_ abridges.parent ?_ (unaffected.adjacent step listed) ?_
  · intro node known
    exact abridges.predicatesAccept_eq known fun asked =>
      unaffected.last step.compound written asked node known
  · exact abridges.parent.find noCircles.within_parent noCirclesOther.within_parent filters
  · intro adjacent
    exact (unaffected.adjacent step listed adjacent).find noCircles.within_previous
      noCirclesOther.within_previous filters

/-- A query accepts a node kept in both trees or in none. -/
theorem query_accepts {node : ν} (known : kept node) :
    query.accepts other node = query.accepts view node := by
  have subject : query.subject.accepts other node = query.subject.accepts view node := by
    rw [Compound.accepts, Compound.accepts, (abridges.alike node known).filter_accepts,
      abridges.predicatesAccept_eq known fun asked =>
        unaffected.last query.subject List.mem_cons_self asked node known]
  have steps : Walk.Carries {node | kept node} id (view.followAll query.steps)
      (other.followAll query.steps) :=
    .followAll fun step listed => abridges.follow noCircles noCirclesOther unaffected listed
  have same : other.followAll query.steps node = view.followAll query.steps node :=
    (steps.same known).trans Option.map_id_apply
  rw [Query.accepts, Query.accepts, subject, same]

end Abridges

end TreeView

/-- In an abridged tree a query selects what it selects in the whole tree, less the nodes left
out. -/
theorem Host.matched_eq_filter_kept {ν : Type} [DecidableEq ν] {host other : Host ν}
    {kept : ν → Bool} (abridges : other.Abridges host.toTreeView kept)
    (noCircles : host.NoCircles) (noCirclesOther : other.NoCircles) {query : Query}
    (unaffected : other.Unaffected host.toTreeView kept query) {scope : ν} (known : kept scope) :
    other.matched scope query = (host.matched scope query).filter kept := by
  rw [matched_eq_filter, matched_eq_filter, abridges.descendants_eq known noCircles noCirclesOther,
    eraseDups_filter, List.filter_comm]
  rw [List.filter_filter, List.filter_filter]
  refine List.filter_congr fun node _ => ?_
  by_cases nodeKnown : kept node
  · rw [abridges.query_accepts noCircles noCirclesOther unaffected nodeKnown]
  · simp [nodeKnown]

end TreeQuery
