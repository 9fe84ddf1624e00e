import Mathlib.Data.List.Basic
import Mathlib.Data.Set.Function
import TreeQuery.Select
/-!
# Contexts as nodes led on

A context is made with one candidate, and a step leads a candidate to one node at most. So a
context is all along a node selected and the place where its candidate has come to, and what is
left after every step is told node by node: a query accepts a node when the node has the subject
and the steps lead on from it (`Query.accepts`), and what is selected are the accepted nodes below
the scope (`matched_eq_filter`).
-/
namespace TreeQuery

section Occurrences

variable {α : Type} [DecidableEq α]

/-- Values are taken apart from the front, each with its later occurrences. -/
theorem eraseDups_induction {motive : List α → Prop} (nil : motive [])
    (cons : ∀ first rest, motive (rest.filter fun value => !value == first) →
      motive (first :: rest)) (values : List α) : motive values := by
  induction length : values.length using Nat.strongRecOn generalizing values with
  | _ size ih =>
    cases values with
    | nil => exact nil
    | cons first rest =>
      have shorter := List.length_filter_le (fun value => !value == first) rest
      rw [List.length_cons] at length
      exact cons first rest (ih _ (by omega) _ rfl)

/-- A list without its later occurrences repeats nothing. -/
theorem nodup_eraseDups (values : List α) : values.eraseDups.Nodup := by
  induction values using eraseDups_induction with
  | nil => exact List.nodup_nil
  | cons first rest others =>
    rw [List.eraseDups_cons, List.nodup_cons]
    exact ⟨by simp, others⟩

/-- Keeping some values and keeping first occurrences can be done in either order. -/
theorem eraseDups_filter (passes : α → Bool) (values : List α) :
    (values.filter passes).eraseDups = values.eraseDups.filter passes := by
  induction values using eraseDups_induction with
  | nil => rfl
  | cons first rest others =>
    rw [List.eraseDups_cons]
    by_cases holds : passes first
    · rw [List.filter_cons_of_pos holds, List.filter_cons_of_pos holds, List.eraseDups_cons,
        ← others, List.filter_comm]
    · have dropped : (rest.filter fun value => !value == first).filter passes =
          rest.filter passes := by
        rw [List.filter_filter]
        apply List.filter_congr
        intro value _
        by_cases same : value = first
        · simp [same, holds]
        · simp [same]
      rw [List.filter_cons_of_neg holds, List.filter_cons_of_neg holds, ← others, dropped]

/-- Under a map that keeps values apart, first occurrences are mapped to first occurrences. -/
theorem eraseDups_map {β : Type} [DecidableEq β] {known : Set α} {place : α → β}
    (injective : Set.InjOn place known) (values : List α)
    (allKnown : ∀ value ∈ values, value ∈ known) :
    (values.map place).eraseDups = values.eraseDups.map place := by
  induction values using eraseDups_induction with
  | nil => rfl
  | cons first rest others =>
    have firstKnown := allKnown first List.mem_cons_self
    have restKnown : ∀ value ∈ rest, value ∈ known := fun value listed =>
      allKnown value (List.mem_cons_of_mem _ listed)
    have apart : (rest.map place).filter (fun value => !value == place first) =
        (rest.filter fun value => !value == first).map place := by
      rw [List.filter_map]
      refine congrArg (List.map place) (List.filter_congr fun value listed => ?_)
      simp only [Function.comp_apply, beq_eq_decide,
        injective.eq_iff (restKnown value listed) firstKnown]
    rw [List.map_cons, List.eraseDups_cons, List.eraseDups_cons, apart, List.map_cons,
      others fun value kept => restKnown value (List.mem_filter.mp kept).1]

end Occurrences

namespace Context

variable {ν : Type} [DecidableEq ν]

/-- The context of a node whose candidate has come to some place. -/
def reaching (anchor candidate : ν) : Context ν := ⟨anchor, [candidate]⟩

/-- A step leads the one candidate of a context on, or drops the context. -/
theorem advance_reaching (step : ν → Option ν) (anchor candidate : ν) :
    (Context.reaching anchor candidate).advance step =
      (step candidate).map (Context.reaching anchor) := by
  cases led : step candidate with
  | none => simp [advance, reaching, led]
  | some next => simp [advance, reaching, led, List.eraseDups_cons]

end Context

namespace TreeView

variable {ν : Type} [DecidableEq ν]

/-- Where steps lead from a node, one after the other. -/
def followAll (view : TreeView ν) : List Step → ν → Option ν
  | [], node => some node
  | step :: later, node => (view.follow step node).bind (view.followAll later)

/-- Narrowing by steps leads every candidate on by them, and keeps the contexts that they lead
somewhere. -/
theorem foldl_advanceAll (view : TreeView ν) (steps : List Step) (nodes : List ν)
    (place : ν → Option ν) :
    steps.foldl view.advanceAll
        (nodes.filterMap fun node => (place node).map (Context.reaching node)) =
      nodes.filterMap fun node =>
        ((place node).bind (view.followAll steps)).map (Context.reaching node) := by
  induction steps generalizing place with
  | nil => simp [followAll]
  | cons step later ih =>
    have narrowed : view.advanceAll
          (nodes.filterMap fun node => (place node).map (Context.reaching node)) step =
        nodes.filterMap fun node =>
          ((place node).bind (view.follow step)).map (Context.reaching node) := by
      unfold advanceAll
      rw [List.filterMap_filterMap]
      apply List.filterMap_congr
      intro node _
      cases place node with
      | none => rfl
      | some candidate => exact Context.advance_reaching (view.follow step) node candidate
    rw [List.foldl_cons, narrowed, ih]
    apply List.filterMap_congr
    intro node _
    cases place node with
    | none => rfl
    | some candidate => rfl

end TreeView

/-- Whether a node has the subject of a query and the steps lead on from it. -/
def Query.accepts {ν : Type} [DecidableEq ν] (query : Query) (view : TreeView ν) (node : ν) :
    Bool :=
  query.subject.accepts view node && (view.followAll query.steps node).isSome

namespace Host

variable {ν : Type}

/-- The seeds are the nodes below the scope that have the subject. -/
theorem seeds_eq_filter (host : Host ν) (scope : ν) (subject : Compound) :
    host.seeds scope subject =
      (host.descendants scope).filter (subject.accepts host.toTreeView) := by
  rw [seeds, host.search_eq_filter, List.filter_filter]
  exact List.filter_congr fun node _ => Bool.and_comm _ _

variable [DecidableEq ν]

/-- The contexts left are those of the seeds from which the steps lead on, each with its candidate
where the steps lead to. -/
theorem contexts_eq_filterMap (host : Host ν) (scope : ν) (query : Query) :
    host.contexts scope query = (host.seeds scope query.subject).filterMap fun node =>
      (host.toTreeView.followAll query.steps node).map (Context.reaching node) := by
  have seeded : (host.seeds scope query.subject).map Context.seed =
      (host.seeds scope query.subject).filterMap fun node =>
        (some node).map (Context.reaching node) := by
    rw [← List.filterMap_eq_map]
    rfl
  rw [contexts, seeded, host.toTreeView.foldl_advanceAll query.steps _ some]
  rfl

/-- What a query selects below a scope are the nodes there that it accepts, each once. -/
theorem matched_eq_filter (host : Host ν) (scope : ν) (query : Query) :
    host.matched scope query =
      (host.descendants scope).eraseDups.filter (query.accepts host.toTreeView) := by
  have anchors : (host.contexts scope query).map Context.anchor =
      (host.descendants scope).filter (query.accepts host.toTreeView) := by
    rw [contexts_eq_filterMap, seeds_eq_filter, List.map_filterMap, List.filterMap_filter,
      ← List.filterMap_eq_filter]
    apply List.filterMap_congr
    intro node _
    cases subject : query.subject.accepts host.toTreeView node with
    | false => simp [Query.accepts, Option.guard, subject]
    | true =>
      cases led : host.toTreeView.followAll query.steps node with
      | none => simp [Query.accepts, Option.guard, subject, led]
      | some reached => simp [Query.accepts, Option.guard, subject, led, Context.reaching]
  rw [matched, anchors, eraseDups_filter]

end Host

end TreeQuery
