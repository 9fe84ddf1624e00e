import TreeQuery.Host
import TreeQuery.Selector.Query

/-!
# Selecting nodes

The nodes that have the subject of a query are its seeds. Each seed is the anchor of a context,
which also holds the nodes that the next step is checked from; a step narrows the context to the
nodes it leads to, and a context without nodes is dropped. A step looks at the nearest node alone
that passes the filter on its side and never goes back: a descendant step asks the predicates of
that node and stays, the other two ask that it is the parent or the sibling just before, and move
to it. What is selected are the anchors that are left, in document order and each once.

A selector is read while the contexts are narrowed, each step as soon as it is read. That is the
same as reading the whole query first and narrowing afterwards (`selectBelow_eq`): no step is left
unread when no context is left.
-/
namespace TreeQuery

/-- A possible result while the steps of a query are checked. -/
structure Context (ν : Type) where
  /-- The node selected if the context is left in the end. -/
  anchor : ν
  /-- The nodes that the next step is checked from. -/
  candidates : List ν
  deriving DecidableEq, Repr

namespace Context

variable {ν : Type}

/-- The context of a seed. -/
def seed (anchor : ν) : Context ν := ⟨anchor, [anchor]⟩

/-- The context with its candidates led on by a step, none when the step leads nowhere. -/
def advance [DecidableEq ν] (step : ν → Option ν) (context : Context ν) : Option (Context ν) :=
  match (context.candidates.filterMap step).eraseDups with
  | [] => none
  | survivors => some { context with candidates := survivors }

end Context

namespace TreeView

variable {ν : Type} [DecidableEq ν]

/-- Where a step leads from a node. -/
def follow (view : TreeView ν) (step : Step) (node : ν) : Option ν :=
  match step.relation with
  | .descendant => do
    let ancestor ← view.nearestAncestor node step.compound.filter
    if step.compound.predicatesAccept view ancestor then some node else none
  | .child => do
    let parent ← view.parent node
    let nearest ← view.nearestAncestor node step.compound.filter
    if nearest = parent ∧ step.compound.predicatesAccept view nearest then some nearest else none
  | .adjacent => do
    let previous ← view.previous node
    let nearest ← view.nearestPreceding node step.compound.filter
    if nearest = previous ∧ step.compound.predicatesAccept view nearest then some nearest
    else none

/-- Narrows contexts by a step. -/
def advanceAll (view : TreeView ν) (contexts : List (Context ν)) (step : Step) :
    List (Context ν) :=
  contexts.filterMap (Context.advance (view.follow step))

/-- Narrows contexts by the steps that a cursor has in front of it. -/
def narrow (view : TreeView ν) (cursor : Cursor) (contexts : List (Context ν)) :
    Diagnosed (List (Context ν)) :=
  if cursor.exhausted then pure contexts
  else
    match taken : cursor.takeStep with
    | (.error error, _) => Diagnosed.fail error
    | (.ok (relation, token), rest) =>
      have := Cursor.length_lt_of_takeStep taken
      do
        let compound ← Compound.parse token
        view.narrow rest (view.advanceAll contexts ⟨relation, compound⟩)
termination_by cursor.remaining.length

/-- Narrowing by the steps in front of a cursor is reading them all and narrowing by each. -/
theorem narrow_eq (view : TreeView ν) (cursor : Cursor) (contexts : List (Context ν)) :
    view.narrow cursor contexts = (do
      let steps ← Query.stepsFrom cursor
      pure (steps.foldl view.advanceAll contexts)) := by
  fun_induction narrow view cursor contexts with
  | case1 cursor contexts done => simp [Query.stepsFrom_of_exhausted done]
  | case2 cursor contexts more error after taken =>
    rw [Query.stepsFrom_of_error more taken]
    rfl
  | case3 cursor contexts more relation token rest taken shorter ih =>
    simp only [Query.stepsFrom_of_step more taken, ih, bind_assoc, pure_bind, List.foldl_cons]

end TreeView

namespace Host

variable {ν : Type} [DecidableEq ν]

/-- The nodes below a scope that have the subject of a query. -/
def seeds (host : Host ν) (scope : ν) (subject : Compound) : List ν :=
  (host.search scope subject.filter).filter (subject.predicatesAccept host.toTreeView)

/-- The nodes that a selector selects below a scope. -/
def selectBelow (host : Host ν) (scope : ν) (selector : String) : Diagnosed (List ν) :=
  match (Cursor.ofSelector selector).takeToken with
  | (.error error, _) => Diagnosed.fail error
  | (.ok token, rest) => do
    let subject ← Compound.parse token
    let contexts ← host.toTreeView.narrow rest ((host.seeds scope subject).map Context.seed)
    pure (contexts.map Context.anchor).eraseDups

/-- The nodes that a selector selects in the whole tree. -/
def select (host : Host ν) (selector : String) : Diagnosed (List ν) :=
  host.selectBelow host.root selector

/-- The first node that a selector selects. -/
def selectFirst (host : Host ν) (selector : String) : Diagnosed (Option ν) := do
  let selected ← host.select selector
  pure selected.head?

/-- Whether a selector selects a node. -/
def selects (host : Host ν) (node : ν) (selector : String) : Diagnosed Bool := do
  let selected ← host.select selector
  pure (selected.contains node)

/-- The contexts that are left after every step of a query. -/
def contexts (host : Host ν) (scope : ν) (query : Query) : List (Context ν) :=
  query.steps.foldl host.toTreeView.advanceAll
    ((host.seeds scope query.subject).map Context.seed)

/-- The nodes that a query selects below a scope. -/
def matched (host : Host ν) (scope : ν) (query : Query) : List ν :=
  ((host.contexts scope query).map Context.anchor).eraseDups

/-- Selecting by a selector is reading it and selecting by its query. -/
theorem selectBelow_eq (host : Host ν) (scope : ν) (selector : String) :
    host.selectBelow scope selector = (do
      let query ← Query.parse selector
      pure (host.matched scope query)) := by
  unfold selectBelow Query.parse
  rcases (Cursor.ofSelector selector).takeToken with ⟨error | token, rest⟩
  · rfl
  · simp only [TreeView.narrow_eq, bind_assoc, pure_bind]
    rfl

/-- Selecting fails as reading the selector fails, on every tree and from every scope. -/
theorem outcome_selectBelow (host : Host ν) (scope : ν) (selector : String) :
    (host.selectBelow scope selector).outcome =
      (Query.parse selector).outcome.map (host.matched scope) := by
  simp only [selectBelow_eq, Diagnosed.outcome_bind, Diagnosed.outcome_pure]
  cases (Query.parse selector).outcome <;> rfl

end Host

end TreeQuery
