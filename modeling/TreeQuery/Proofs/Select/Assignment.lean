import TreeQuery.Proofs.Select.Meaning
/-!
# Selecting without loss

A selector can be read as asking for nodes, one for each of its tokens, which have what the tokens
say and stand to each other as the combinators say (`TreeView.Assigns`). Selecting looks for less:
an ancestor is the nearest one that passes the filter, and is not tried again. Nothing is lost by
that where every step has one node to look at, the parent or the sibling just before, and only the
last step may look for an ancestor, by its filter alone (`Lossless`): then the nearest ancestor
that passes is as good as any other.
-/
namespace TreeQuery

namespace Walk

variable {ν : Type}

/-- There is a nearest node that passes when a link leads on to any that does. -/
theorem exists_nearest_iff {link : ν → Option ν} {passes : ν → Bool} {node : ν} :
    (∃ found, Nearest link passes node found) ↔
      ∃ met, Relation.TransGen (fun node met => link node = some met) node met ∧ passes met := by
  constructor
  · rintro ⟨found, nearest⟩
    refine ⟨found, ?_, nearest.passes⟩
    induction nearest with
    | here leads _ => exact .single leads
    | further leads _ _ ih => exact .head leads ih
  · rintro ⟨met, way, holds⟩
    induction way using Relation.TransGen.head_induction_on with
    | single leads => exact ⟨met, .here leads holds⟩
    | @head node next leads _ ih =>
      obtain ⟨found, later⟩ := ih
      by_cases passing : passes next
      · exact ⟨next, .here leads passing⟩
      · exact ⟨found, .further leads passing later⟩

end Walk

namespace TreeView

variable {ν : Type}

/-- Whether another node stands to a node as the token to the left asks. -/
def Related (view : TreeView ν) : Relation → ν → ν → Prop
  | .descendant => Relation.TransGen fun node met => view.parent node = some met
  | .child => fun node met => view.parent node = some met
  | .adjacent => fun node met => view.previous node = some met

/-- Nodes assigned to the tokens of some steps, counted from the right behind the token that the
steps start at: each stands to the one assigned before it as the step asks, and has everything
that its token says. -/
def AssignsSteps (view : TreeView ν) (steps : List Step) (assigned : Nat → ν) : Prop :=
  ∀ index step, steps[index]? = some step →
    view.Related step.relation (assigned index) (assigned (index + 1)) ∧
      step.compound.accepts view (assigned (index + 1))

/-- Nodes assigned to the tokens of a query, counted from the right: each has everything that its
token says, and neighbours stand to each other as the combinator between their tokens asks. -/
structure Assigns (view : TreeView ν) (query : Query) (assigned : Nat → ν) : Prop where
  /-- The first node has what the rightmost token says. -/
  subject : query.subject.accepts view (assigned 0)
  /-- The others follow by the steps of the query. -/
  steps : view.AssignsSteps query.steps assigned

/-- Nodes are assigned to a step and to the steps behind it when the next node is related as the
step asks, and nodes are assigned from there. -/
theorem exists_assignsSteps_cons_iff {view : TreeView ν} {step : Step} {later : List Step}
    {node : ν} : (∃ assigned, assigned 0 = node ∧ view.AssignsSteps (step :: later) assigned) ↔
      ∃ met, view.Related step.relation node met ∧ step.compound.accepts view met ∧
        ∃ assigned, assigned 0 = met ∧ view.AssignsSteps later assigned := by
  constructor
  · rintro ⟨assigned, rfl, assigns⟩
    obtain ⟨related, holds⟩ := assigns 0 step rfl
    exact ⟨assigned 1, related, holds, fun index => assigned (index + 1), rfl,
      fun index step listed => assigns (index + 1) step listed⟩
  · rintro ⟨met, related, holds, assigned, rfl, assigns⟩
    refine ⟨fun index => index.casesOn node assigned, rfl, fun index other listed => ?_⟩
    cases index with
    | zero =>
      cases listed
      exact ⟨related, holds⟩
    | succ index => exact assigns index other listed

end TreeView

/-- Steps that lose nothing by looking at one node each: only the leftmost may look for an
ancestor, and then for one that passes a filter alone. -/
structure Lossless (steps : List Step) : Prop where
  /-- Every step but the leftmost looks at the parent or at the sibling just before. -/
  inner : ∀ step ∈ steps.dropLast, step.relation ≠ .descendant
  /-- An ancestor is asked for nothing but tag, id and classes. -/
  leftmost : ∀ step ∈ steps.getLast?, step.relation = .descendant → step.compound.predicates = []

namespace Lossless

variable {step : Step} {later : List Step}

/-- Behind a step that loses nothing, nothing is lost. -/
theorem tail (lossless : Lossless (step :: later)) : Lossless later := by
  cases later with
  | nil => exact ⟨nofun, nofun⟩
  | cons next rest =>
    exact ⟨fun other listed => lossless.inner other (List.mem_cons_of_mem _ listed),
      lossless.leftmost⟩

/-- An ancestor is looked for by the last step alone, and by its filter alone. -/
theorem eq_nil_of_descendant (lossless : Lossless (step :: later))
    (upwards : step.relation = .descendant) : later = [] ∧ step.compound.predicates = [] := by
  cases later with
  | nil => exact ⟨rfl, lossless.leftmost step rfl upwards⟩
  | cons next rest => exact absurd upwards (lossless.inner step List.mem_cons_self)

end Lossless

namespace Compound

variable {ν : Type} (compound : Compound) (bare : compound.predicates = []) (view : TreeView ν)
  (node : ν)

include bare

/-- Without predicates, none fails. -/
theorem predicatesAccept_of_bare : compound.predicatesAccept view node := by
  rw [predicatesAccept, bare]
  rfl

/-- Without predicates, a node has everything that a token says when it passes the filter. -/
theorem accepts_of_bare : compound.accepts view node ↔ compound.filter.accepts view node := by
  rw [accepts, compound.predicatesAccept_of_bare bare, Bool.and_true]

end Compound

namespace TreeView

/-- Steps that lose nothing lead on from the nodes from which nodes can be assigned to them. -/
theorem leadsOn_iff_exists_assignsSteps {ν : Type} (view : TreeView ν) {steps : List Step}
    (lossless : Lossless steps) (node : ν) :
    view.LeadsOn steps node ↔
      ∃ assigned, assigned 0 = node ∧ view.AssignsSteps steps assigned := by
  induction steps generalizing node with
  | nil => exact ⟨fun _ => ⟨fun _ => node, rfl, nofun⟩, fun _ => .nil⟩
  | cons step later ih =>
    rw [exists_assignsSteps_cons_iff]
    simp only [← ih lossless.tail]
    obtain ⟨relation, compound⟩ := step
    cases relation with
    | child =>
      constructor
      · rintro (_ | _ | ⟨leads, holds, on⟩)
        exact ⟨_, leads, holds, on⟩
      · rintro ⟨parent, leads, holds, on⟩
        exact .child leads holds on
    | adjacent =>
      constructor
      · rintro (_ | _ | _ | ⟨leads, holds, on⟩)
        exact ⟨_, leads, holds, on⟩
      · rintro ⟨previous, leads, holds, on⟩
        exact .adjacent leads holds on
    | descendant =>
      obtain ⟨rfl, bare⟩ := lossless.eq_nil_of_descendant rfl
      constructor
      · rintro (_ | ⟨nearest, _, _⟩)
        obtain ⟨met, way, passing⟩ := Walk.exists_nearest_iff.mp ⟨_, nearest⟩
        exact ⟨met, way, (compound.accepts_of_bare bare view met).mpr passing, .nil⟩
      · rintro ⟨met, way, holds, _⟩
        have passing := (compound.accepts_of_bare bare view met).mp holds
        obtain ⟨found, nearest⟩ := Walk.exists_nearest_iff.mpr ⟨met, way, passing⟩
        exact .descendant nearest (compound.predicatesAccept_of_bare bare view found) .nil

end TreeView

/-- A selector whose steps lose nothing selects the nodes below the root that can be assigned to
its rightmost token together with nodes for all its other tokens. -/
theorem mem_selected_iff_assigns {ν : Type} [DecidableEq ν] (host : Host ν)
    (noCircles : host.NoCircles) {selector : String} {query : Query}
    (read : (Query.parse selector).outcome = .ok query) (lossless : Lossless query.steps) :
    ∃ selected, (host.select selector).outcome = .ok selected ∧
      ∀ node, node ∈ selected ↔ host.Below host.root node ∧
        ∃ assigned, assigned 0 = node ∧ host.Assigns query assigned := by
  refine ⟨host.matched host.root query, ?_, fun node => ?_⟩
  · rw [Host.select, Host.outcome_selectBelow, read]
    rfl
  · rw [host.mem_matched_iff noCircles, host.leadsOn_iff_exists_assignsSteps lossless]
    refine and_congr_right fun _ => ⟨?_, ?_⟩
    · rintro ⟨subject, assigned, rfl, steps⟩
      exact ⟨assigned, rfl, subject, steps⟩
    · rintro ⟨assigned, rfl, assigns⟩
      exact ⟨assigns.subject, assigned, rfl, assigns.steps⟩

/-- A second item with a list around it in a division: the items, the list and the division can be
assigned to the tokens. -/
theorem mem_selected_iff_assigns_twoItems :
    twoItems.host.NoCircles ∧
    (Query.parse "div ul > li + li").outcome =
      .ok ⟨.ofTag "li", [⟨.adjacent, .ofTag "li"⟩, ⟨.child, .ofTag "ul"⟩,
        ⟨.descendant, .ofTag "div"⟩]⟩ ∧
    Lossless [⟨.adjacent, .ofTag "li"⟩, ⟨.child, .ofTag "ul"⟩, ⟨.descendant, .ofTag "div"⟩] ∧
    ∃ selected, (twoItems.host.select "div ul > li + li").outcome = .ok selected ∧
      ∀ node, node ∈ selected ↔ twoItems.host.Below twoItems.host.root node ∧
        ∃ assigned, assigned 0 = node ∧ twoItems.host.Assigns
          ⟨.ofTag "li", [⟨.adjacent, .ofTag "li"⟩, ⟨.child, .ofTag "ul"⟩,
            ⟨.descendant, .ofTag "div"⟩]⟩ assigned := by
  have noCircles : twoItems.host.NoCircles := Tree.noCircles_of_linksForward (by decide)
  have read : (Query.parse "div ul > li + li").outcome =
      .ok ⟨.ofTag "li", [⟨.adjacent, .ofTag "li"⟩, ⟨.child, .ofTag "ul"⟩,
        ⟨.descendant, .ofTag "div"⟩]⟩ := by decide +kernel
  have lossless : Lossless
      [⟨.adjacent, .ofTag "li"⟩, ⟨.child, .ofTag "ul"⟩, ⟨.descendant, .ofTag "div"⟩] :=
    ⟨by decide, by simp [Compound.ofTag]⟩
  exact ⟨noCircles, read, lossless, mem_selected_iff_assigns twoItems.host noCircles read lossless⟩

end TreeQuery
