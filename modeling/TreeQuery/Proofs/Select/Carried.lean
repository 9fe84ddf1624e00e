import TreeQuery.Proofs.Select.Contexts
import TreeQuery.Proofs.Walk.Carried
/-!
# Steps carried from one tree to another

A step looks at an ancestor, at the parent or at the sibling just before, and at predicates there.
Where the links that it looks along are carried to the places of nodes in another tree, and the
predicates ask the same there, the step leads between places as it leads between nodes
(`Walk.Carries.follow`), and so do steps one after the other (`Walk.Carries.followAll`).
-/
namespace TreeQuery.Walk.Carries

variable {ν μ : Type} [DecidableEq ν] [DecidableEq μ] {view : TreeView ν} {other : TreeView μ}
  {nodes : Set ν} {place : ν → μ}

/-- A step is carried with the links that it looks along, when its predicates ask the same at the
places of the nodes. -/
theorem follow (injective : Set.InjOn place nodes) (step : Step)
    (alike : ∀ node ∈ nodes, step.compound.predicatesAccept other (place node) =
      step.compound.predicatesAccept view node)
    (parent : Carries nodes place view.parent other.parent)
    (ancestor : Carries nodes place (view.nearestAncestor · step.compound.filter)
      (other.nearestAncestor · step.compound.filter))
    (previous : step.relation = .adjacent → Carries nodes place view.previous other.previous)
    (sibling : step.relation = .adjacent →
      Carries nodes place (view.nearestPreceding · step.compound.filter)
        (other.nearestPreceding · step.compound.filter)) :
    Carries nodes place (view.follow step) (other.follow step) := by
  obtain ⟨relation, compound⟩ := step
  cases relation with
  | descendant =>
    constructor
    case closed =>
      intro node met known leads
      simp only [TreeView.follow, Option.bind_eq_bind, Option.bind_eq_some_iff,
        Option.ite_none_right_eq_some, Option.some.injEq] at leads
      obtain ⟨_, _, _, rfl⟩ := leads
      exact known
    case same =>
      intro node known
      simp only [TreeView.follow, ancestor.same known]
      cases found : view.nearestAncestor node compound.filter with
      | none => rfl
      | some upper =>
        simp only [Option.map_some, Option.bind_eq_bind, Option.bind_some,
          alike upper (ancestor.closed known found)]
        split <;> rfl
  | child => exact .neighbour injective parent ancestor alike
  | adjacent => exact .neighbour injective (previous rfl) (sibling rfl) alike

/-- Steps one after the other are carried when each of them is. -/
theorem followAll {steps : List Step}
    (carries : ∀ step ∈ steps, Carries nodes place (view.follow step) (other.follow step)) :
    Carries nodes place (view.followAll steps) (other.followAll steps) := by
  induction steps with
  | nil =>
    constructor
    · rintro node _ known ⟨⟩
      exact known
    · exact fun _ => rfl
  | cons step later ih =>
    exact (carries step List.mem_cons_self).bind
      (ih fun other listed => carries other (List.mem_cons_of_mem _ listed))

end TreeQuery.Walk.Carries
