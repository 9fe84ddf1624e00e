import Mathlib.Data.Set.Function
import TreeQuery.Proofs.Walk.Bound
import TreeQuery.Proofs.Walk.DocumentOrder
/-!
# Walks carried from one set of nodes to another

A map gives some nodes a place among other nodes. It carries a link when the link leads from these
nodes to these nodes alone, and the other link leads from place to place in the same way
(`Carries`). Then it carries what is built from the link: chains, the first node on a chain that
passes a test, ways of several links, and the document order of child lists.
-/
namespace TreeQuery.Walk

variable {ν μ : Type} {nodes : Set ν} {place : ν → μ}

/-- A link keeps to some nodes, and another link leads between their places as it does between
them. -/
structure Carries (nodes : Set ν) (place : ν → μ) (link : ν → Option ν)
    (other : μ → Option μ) : Prop where
  /-- The link does not leave the nodes. -/
  closed : ∀ {node met}, node ∈ nodes → link node = some met → met ∈ nodes
  /-- The other link leads from the place of a node to the place that the link leads to. -/
  same : ∀ {node}, node ∈ nodes → other (place node) = (link node).map place

namespace Carries

variable {link search : ν → Option ν} {other otherSearch : μ → Option μ} {node : ν} {bound : Nat}

/-- A chain does not leave the nodes. -/
theorem mem_of_mem_chain (carries : Carries nodes place link other) (known : node ∈ nodes)
    {met : ν} (listed : met ∈ chain link bound node) : met ∈ nodes := by
  induction bound generalizing node with
  | zero => cases listed
  | succ bound ih =>
    cases leads : link node with
    | none => simp [chain, leads] at listed
    | some next =>
      have nextKnown := carries.closed known leads
      simp only [chain, leads, List.mem_cons] at listed
      rcases listed with rfl | further
      · exact nextKnown
      · exact ih nextKnown further

/-- The chain from the place of a node has the places of the chain from the node. -/
theorem chain_map (carries : Carries nodes place link other) (known : node ∈ nodes)
    (bound : Nat) : chain other bound (place node) = (chain link bound node).map place := by
  induction bound generalizing node with
  | zero => rfl
  | succ bound ih =>
    cases leads : link node with
    | none => simp [chain, leads, carries.same known]
    | some met => simp [chain, leads, carries.same known, ih (carries.closed known leads)]

/-- Where ways end from the place of a node, they end from the node. -/
theorem within (carries : Carries nodes place link other) (known : node ∈ nodes)
    (ends : Within (fun node met => other node = some met) bound (place node)) :
    Within (fun node met => link node = some met) bound node := by
  induction bound generalizing node with
  | zero =>
    intro met leads
    have leadsOther : other (place node) = some (place met) := by
      rw [carries.same known, leads, Option.map_some]
    exact ends (place met) leadsOther
  | succ bound ih =>
    intro met leads
    have leadsOther : other (place node) = some (place met) := by
      rw [carries.same known, leads, Option.map_some]
    exact ih (carries.closed known leads) (ends (place met) leadsOther)

/-- Chains that reach their ends have the same places, whatever their bounds are. -/
theorem chain_eq (carries : Carries nodes place link other) (known : node ∈ nodes)
    {otherBound : Nat} (ends : Within (fun node met => link node = some met) bound node)
    (endsOther : Within (fun node met => other node = some met) otherBound (place node)) :
    chain other otherBound (place node) = (chain link bound node).map place := by
  rw [carries.chain_map known, chain_eq_of_within (carries.within known endsOther) ends]

/-- The first node on a chain that passes a test is carried with its link. -/
theorem find (carries : Carries nodes place link other) {otherBound : Nat}
    (ends : ∀ node, Within (fun node met => link node = some met) bound node)
    (endsOther : ∀ node, Within (fun node met => other node = some met) otherBound node)
    {passes : ν → Bool} {otherPasses : μ → Bool}
    (alike : ∀ node ∈ nodes, otherPasses (place node) = passes node) :
    Carries nodes place (fun node => (chain link bound node).find? passes)
      (fun node => (chain other otherBound node).find? otherPasses) where
  closed known found := carries.mem_of_mem_chain known (List.mem_of_find?_eq_some found)
  same {node} known := by
    have tests : ∀ met ∈ chain link bound node, otherPasses (place met) = passes met :=
      fun met listed => alike met (carries.mem_of_mem_chain known listed)
    rw [carries.chain_eq known (ends node) (endsOther (place node)), List.find?_map,
      ← List.head?_filter, ← List.head?_filter]
    exact congrArg (fun found => found.head?.map place) (List.filter_congr tests)

/-- Two links one after the other are carried when both are. -/
theorem bind (carries : Carries nodes place link other)
    (carriesSearch : Carries nodes place search otherSearch) :
    Carries nodes place (fun node => (link node).bind search)
      (fun node => (other node).bind otherSearch) where
  closed {node _} known leads := by
    obtain ⟨middle, first, second⟩ := Option.bind_eq_some_iff.mp leads
    exact carriesSearch.closed (carries.closed known first) second
  same {node} known := by
    rw [carries.same known]
    cases leads : link node with
    | none => rfl
    | some met => exact carriesSearch.same (carries.closed known leads)

/-- Asking that a search finds the node that a link leads to, and that a test holds of it, is
carried with the link and the search. -/
theorem neighbour [DecidableEq ν] [DecidableEq μ] (injective : Set.InjOn place nodes)
    (carries : Carries nodes place link other)
    (carriesSearch : Carries nodes place search otherSearch)
    {holds : ν → Bool} {otherHolds : μ → Bool}
    (alike : ∀ node ∈ nodes, otherHolds (place node) = holds node) :
    Carries nodes place
      (fun node => do
        let met ← link node
        let nearest ← search node
        if nearest = met ∧ holds nearest then some nearest else none)
      (fun node => do
        let met ← other node
        let nearest ← otherSearch node
        if nearest = met ∧ otherHolds nearest then some nearest else none) where
  closed {node found} known leads := by
    simp only [Option.bind_eq_bind, Option.bind_eq_some_iff, Option.ite_none_right_eq_some,
      Option.some.injEq] at leads
    obtain ⟨_, _, _, nearest, _, rfl⟩ := leads
    exact carriesSearch.closed known nearest
  same {node} known := by
    simp only [carries.same known, carriesSearch.same known]
    cases leads : link node with
    | none => rfl
    | some met =>
      cases finds : search node with
      | none => rfl
      | some nearest =>
        have metKnown := carries.closed known leads
        have nearestKnown := carriesSearch.closed known finds
        simp only [Option.map_some, Option.bind_eq_bind, Option.bind_some,
          injective.eq_iff nearestKnown metKnown, alike nearest nearestKnown]
        split <;> rfl

end Carries

variable {children : ν → List ν} {others : μ → List μ}

/-- Where child lists do not leave some nodes, document order does not. -/
theorem DocumentOrder.mem_of_closed
    (closed : ∀ node ∈ nodes, ∀ child ∈ children node, child ∈ nodes) {first order : List ν}
    (ordered : DocumentOrder children first order) (known : ∀ node ∈ first, node ∈ nodes) :
    ∀ node ∈ order, node ∈ nodes := by
  induction ordered with
  | nil => exact known
  | @cons first rest inner later _ _ inside after =>
    have firstKnown := known first List.mem_cons_self
    intro node listed
    rcases List.mem_cons.mp listed with rfl | further
    · exact firstKnown
    · rcases List.mem_append.mp further with below | behind
      · exact inside (closed first firstKnown) node below
      · exact after (fun node listed => known node (List.mem_cons_of_mem _ listed)) node behind

/-- Child lists of the places that have the places of the children give the places the document
order of the nodes. -/
theorem DocumentOrder.map (closed : ∀ node ∈ nodes, ∀ child ∈ children node, child ∈ nodes)
    (same : ∀ node ∈ nodes, others (place node) = (children node).map place)
    {first order : List ν} (ordered : DocumentOrder children first order)
    (known : ∀ node ∈ first, node ∈ nodes) :
    DocumentOrder others (first.map place) (order.map place) := by
  induction ordered with
  | nil => exact .nil
  | @cons first rest inner later _ _ inside after =>
    have firstKnown := known first List.mem_cons_self
    rw [List.map_cons, List.map_cons, List.map_append]
    refine .cons ?_ (after fun node listed => known node (List.mem_cons_of_mem _ listed))
    rw [same first firstKnown]
    exact inside (closed first firstKnown)

end TreeQuery.Walk
