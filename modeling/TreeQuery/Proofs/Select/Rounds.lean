import Mathlib.Data.List.Forall2
import TreeQuery.Proofs.Select.Meaning
/-!
# Contexts in the course of a selection

A selection narrows its contexts in rounds: each takes a step off the selector, reads its token, and
advances every context by it (`TreeView.Rounds`). A round keeps the anchor of a context and leads
its one candidate on to where the step leads, or drops the context (`Context.LedOn.advance`). So
after any rounds, and also where the selector turns out to be malformed later, the contexts left are
those of some seeds in order, each with its seed as its anchor and the node to which the moves of
the steps lead from there as its one candidate (`Host.contexts_after_rounds`).
-/
namespace TreeQuery

variable {ν : Type}

namespace TreeView

/-- Where a step moves to from a node, if all is there that it asks for: the parent for a child
step, the sibling just before for an adjacent step, nowhere else for a descendant step. -/
def move (view : TreeView ν) : Relation → ν → Option ν
  | .descendant, node => some node
  | .child, node => view.parent node
  | .adjacent, node => view.previous node

/-- Where the moves of some steps lead to from a node, one after the other. -/
def moves (view : TreeView ν) (relations : List Relation) (node : ν) : Option ν :=
  relations.foldlM (fun place relation => view.move relation place) node

/-- One move more starts where the moves before it led to. -/
theorem moves_append_singleton (view : TreeView ν) (relations : List Relation)
    (relation : Relation) (node : ν) :
    view.moves (relations ++ [relation]) node =
      (view.moves relations node).bind (view.move relation) := by
  rw [moves, List.foldlM_append]
  simp only [List.foldlM_cons, List.foldlM_nil, bind_pure]
  rfl

variable [DecidableEq ν]

/-- Where the nearest node that passes has to be the one that a link leads to, no other is found. -/
theorem link_of_neighbour {link : ν → Option ν} {holds : ν → Bool} {node next : ν}
    {search : Option ν} (found : (do
      let met ← link node
      let nearest ← search
      if nearest = met ∧ holds nearest then some nearest else none) = some next) :
    link node = some next := by
  simp only [Option.bind_eq_bind, Option.bind_eq_some_iff, Option.ite_none_right_eq_some,
    Option.some.injEq] at found
  obtain ⟨met, leads, nearest, -, ⟨rfl, -⟩, rfl⟩ := found
  exact leads

/-- A step that leads somewhere leads to where it moves. -/
theorem move_of_follow {view : TreeView ν} {step : Step} {node next : ν}
    (led : view.follow step node = some next) : view.move step.relation node = some next := by
  obtain ⟨relation, compound⟩ := step
  cases relation with
  | descendant =>
    simp only [follow, Option.bind_eq_bind, Option.bind_eq_some_iff,
      Option.ite_none_right_eq_some] at led
    obtain ⟨-, -, -, stays⟩ := led
    exact stays
  | child => exact link_of_neighbour led
  | adjacent => exact link_of_neighbour led

end TreeView

/-- Whether a context is that of a seed after some steps: the seed is its anchor, and its one
candidate is the node to which the moves of the steps lead from there. -/
structure Context.LedOn (view : TreeView ν) (relations : List Relation) (context : Context ν)
    (seed : ν) : Prop where
  /-- The seed is the anchor. -/
  anchor : context.anchor = seed
  /-- There is one candidate, and the moves lead to it. -/
  candidate : ∃ candidate, context.candidates = [candidate] ∧
    view.moves relations seed = some candidate

/-- The contexts of the seeds are led on by no move. -/
theorem Context.ledOn_seeds (view : TreeView ν) (seeds : List ν) :
    List.SublistForall₂ (Context.LedOn view []) (seeds.map Context.seed) seeds := by
  refine List.sublistForall₂_iff.mpr ⟨seeds, ?_, List.Sublist.refl seeds⟩
  exact List.forall₂_map_left_iff.mpr
    (List.forall₂_same.mpr fun node _ => ⟨rfl, node, rfl, rfl⟩)

variable [DecidableEq ν] {view : TreeView ν}

/-- A context that is advanced by a step is led on by one more move. -/
theorem Context.LedOn.advance {relations : List Relation} {context next : Context ν} {node : ν}
    (ledOn : context.LedOn view relations node) {step : Step}
    (advanced : context.advance (view.follow step) = some next) :
    next.LedOn view (relations ++ [step.relation]) node := by
  obtain ⟨anchor, candidates⟩ := context
  obtain ⟨rfl, candidate, rfl, moved⟩ := ledOn
  have reached := Context.advance_reaching (view.follow step) anchor candidate
  rw [Context.reaching, advanced] at reached
  obtain ⟨place, led, rfl⟩ := Option.map_eq_some_iff.mp reached.symm
  refine ⟨rfl, place, rfl, ?_⟩
  rw [TreeView.moves_append_singleton, moved, Option.bind_some, TreeView.move_of_follow led]

namespace TreeView

/-- Contexts of some seeds in order stay so in a round, each of them led on by one more move or
dropped. -/
theorem ledOn_advanceAll {relations : List Relation} {contexts : List (Context ν)}
    {seeds : List ν} (all : List.SublistForall₂ (Context.LedOn view relations) contexts seeds)
    (step : Step) :
    List.SublistForall₂ (Context.LedOn view (relations ++ [step.relation]))
      (view.advanceAll contexts step) seeds := by
  unfold advanceAll
  induction all with
  | nil => exact .nil
  | @cons context seed contexts seeds ledOn _ ih =>
    cases advanced : context.advance (view.follow step) with
    | none =>
      rw [List.filterMap_cons_none advanced]
      exact .cons_right ih
    | some next =>
      rw [List.filterMap_cons_some advanced]
      exact .cons (ledOn.advance advanced) ih
  | cons_right _ ih => exact .cons_right ih

/-- What the rounds of a selection come to, from a cursor and the contexts there: in each round a
step is taken off, its token is read, and every context is advanced by it. -/
inductive Rounds (view : TreeView ν) :
    Cursor → List (Context ν) → List Step → Cursor → List (Context ν) → Prop
  /-- Before the first round. -/
  | none {cursor : Cursor} {contexts : List (Context ν)} :
    Rounds view cursor contexts [] cursor contexts
  /-- One round, and others behind it. -/
  | round {cursor rest last : Cursor} {contexts reached : List (Context ν)}
    {relation : Relation} {token : List Char} {compound : Compound} {steps : List Step}
    (more : ¬cursor.exhausted) (taken : cursor.takeStep = (.ok (relation, token), rest))
    (read : (Compound.parse token).outcome = .ok compound)
    (later : Rounds view rest (view.advanceAll contexts ⟨relation, compound⟩) steps last reached) :
    Rounds view cursor contexts (⟨relation, compound⟩ :: steps) last reached

/-- After any rounds the contexts are those of some seeds in order, each led on by the moves of the
steps. -/
theorem Rounds.ledOn {cursor last : Cursor} {contexts reached : List (Context ν)}
    {steps : List Step} (rounds : view.Rounds cursor contexts steps last reached)
    {relations : List Relation} {seeds : List ν}
    (all : List.SublistForall₂ (Context.LedOn view relations) contexts seeds) :
    List.SublistForall₂ (Context.LedOn view (relations ++ steps.map Step.relation)) reached
      seeds := by
  induction rounds generalizing relations with
  | none => simpa using all
  | round more taken read _ ih => simpa using ih (ledOn_advanceAll all _)

/-- Where a step can be taken and its token read, narrowing goes on with the contexts advanced. -/
theorem outcome_narrow_of_step {cursor rest : Cursor} {contexts : List (Context ν)}
    {relation : Relation} {token : List Char} {compound : Compound} (more : ¬cursor.exhausted)
    (taken : cursor.takeStep = (.ok (relation, token), rest))
    (read : (Compound.parse token).outcome = .ok compound) :
    (view.narrow cursor contexts).outcome =
      (view.narrow rest (view.advanceAll contexts ⟨relation, compound⟩)).outcome := by
  simp only [narrow_eq, Query.stepsFrom_of_step more taken, bind_assoc, pure_bind,
    Diagnosed.outcome_bind_of_ok read, List.foldl_cons]

/-- Narrowing comes to the end that it comes to from the contexts after any of its rounds. -/
theorem Rounds.outcome_narrow {cursor last : Cursor} {contexts reached : List (Context ν)}
    {steps : List Step} (rounds : view.Rounds cursor contexts steps last reached) :
    (view.narrow cursor contexts).outcome = (view.narrow last reached).outcome := by
  induction rounds with
  | none => rfl
  | round more taken read _ ih => rw [outcome_narrow_of_step more taken read, ih]

/-- Narrowing that does not fail ends with the contexts of its last round. -/
theorem exists_rounds_of_narrow {cursor : Cursor} {contexts final : List (Context ν)}
    (narrowed : (view.narrow cursor contexts).outcome = .ok final) :
    ∃ steps last, view.Rounds cursor contexts steps last final ∧ last.exhausted := by
  fun_induction narrow view cursor contexts with
  | case1 cursor contexts done =>
    cases narrowed
    exact ⟨[], cursor, .none, done⟩
  | case2 cursor contexts more error after taken => cases narrowed
  | case3 cursor contexts more relation token rest taken shorter ih =>
    obtain ⟨compound, read, behind⟩ := Diagnosed.exists_of_outcome_bind narrowed
    obtain ⟨steps, last, rounds, done⟩ := ih compound behind
    exact ⟨⟨relation, compound⟩ :: steps, last, .round more taken read rounds, done⟩

end TreeView

/-- Where the rightmost token can be read, what is selected are the anchors to which the contexts of
its seeds are narrowed. -/
theorem Host.outcome_selectBelow_of_read (host : Host ν) (scope : ν) {selector : String}
    {token : List Char} {start : Cursor} {subject : Compound}
    (taken : (Cursor.ofSelector selector).takeToken = (.ok token, start))
    (read : (Compound.parse token).outcome = .ok subject) :
    (host.selectBelow scope selector).outcome =
      (host.narrow start ((host.seeds scope subject).map Context.seed)).outcome.map
        fun final => (final.map Context.anchor).eraseDups := by
  rw [selectBelow, taken]
  simp only [Diagnosed.outcome_bind_of_ok read, Diagnosed.outcome_bind, Diagnosed.outcome_pure]
  rfl

/-- After any rounds of a selection, each context left has a seed as its anchor, the seeds of the
contexts left being some of all seeds in order, and has one candidate, the node to which the moves
of the steps so far lead from that seed. The selection ends as it does from there: it selects the
anchors left at the end of the selector. -/
theorem Host.contexts_after_rounds (host : Host ν) (scope : ν) {selector : String}
    {token : List Char} {start : Cursor} {subject : Compound}
    (taken : (Cursor.ofSelector selector).takeToken = (.ok token, start))
    (read : (Compound.parse token).outcome = .ok subject) :
    (∀ steps last reached,
      host.Rounds start ((host.seeds scope subject).map Context.seed) steps last reached →
      (∃ survivors, survivors.Sublist (host.seeds scope subject) ∧
        List.Forall₂ (fun context seed => context.anchor = seed ∧
          ∃ candidate, context.candidates = [candidate] ∧
            host.moves (steps.map Step.relation) seed = some candidate) reached survivors) ∧
      (host.selectBelow scope selector).outcome = (host.narrow last reached).outcome.map
        fun final => (final.map Context.anchor).eraseDups) ∧
    ∀ selected, (host.selectBelow scope selector).outcome = .ok selected →
      ∃ steps last reached,
        host.Rounds start ((host.seeds scope subject).map Context.seed) steps last reached ∧
        last.exhausted ∧ selected = (reached.map Context.anchor).eraseDups := by
  have whole := host.outcome_selectBelow_of_read scope taken read
  constructor
  · intro steps last reached rounds
    obtain ⟨survivors, all, among⟩ := List.sublistForall₂_iff.mp
      (rounds.ledOn (Context.ledOn_seeds host.toTreeView (host.seeds scope subject)))
    rw [List.nil_append] at all
    exact ⟨⟨survivors, among, all.imp fun _ _ ledOn => ⟨ledOn.anchor, ledOn.candidate⟩⟩,
      by rw [whole, rounds.outcome_narrow]⟩
  · intro selected found
    rw [whole] at found
    cases narrowed : (host.narrow start ((host.seeds scope subject).map Context.seed)).outcome with
    | error error =>
      rw [narrowed] at found
      cases found
    | ok final =>
      rw [narrowed] at found
      cases found
      obtain ⟨steps, last, rounds, done⟩ := TreeView.exists_rounds_of_narrow narrowed
      exact ⟨steps, last, final, rounds, done, rfl⟩

/-- Of the two items of the list the second alone has one before it. Its context is led to the first
item and on to the list. -/
theorem Host.contexts_after_rounds_twoItems :
    (Cursor.ofSelector "div ul > li + li").takeToken =
      (.ok "li".toList, ⟨"div ul > li +".toList, .combinator, false⟩) ∧
    (Compound.parse "li".toList).outcome = .ok (.ofTag "li") ∧
    twoItems.host.seeds 0 (.ofTag "li") = [3, 4] ∧
    twoItems.host.Rounds ⟨"div ul > li +".toList, .combinator, false⟩
      ((twoItems.host.seeds 0 (.ofTag "li")).map Context.seed)
      [⟨.adjacent, .ofTag "li"⟩, ⟨.child, .ofTag "ul"⟩] ⟨"div".toList, .combinator, false⟩
      [⟨4, [2]⟩] ∧
    (∃ survivors, survivors.Sublist (twoItems.host.seeds 0 (.ofTag "li")) ∧
      List.Forall₂ (fun (context : Context NodeId) seed => context.anchor = seed ∧
        ∃ candidate, context.candidates = [candidate] ∧
          twoItems.host.moves [.adjacent, .child] seed = some candidate)
        [⟨4, [2]⟩] survivors) ∧
    ∃ selected, (twoItems.host.selectBelow 0 "div ul > li + li").outcome = .ok selected := by
  have taken : (Cursor.ofSelector "div ul > li + li").takeToken =
      (.ok "li".toList, ⟨"div ul > li +".toList, .combinator, false⟩) := by decide +kernel
  have read : (Compound.parse "li".toList).outcome = .ok (.ofTag "li") := by decide +kernel
  have seeds : twoItems.host.seeds 0 (.ofTag "li") = [3, 4] := by decide +kernel
  have first : (⟨"div ul > li +".toList, .combinator, false⟩ : Cursor).takeStep =
      (.ok (.adjacent, "li".toList), ⟨"div ul >".toList, .combinator, false⟩) := by decide +kernel
  have second : (⟨"div ul >".toList, .combinator, false⟩ : Cursor).takeStep =
      (.ok (.child, "ul".toList), ⟨"div".toList, .combinator, false⟩) := by decide +kernel
  have narrowed : twoItems.view.advanceAll (twoItems.view.advanceAll
      ((twoItems.host.seeds 0 (.ofTag "li")).map Context.seed) ⟨.adjacent, .ofTag "li"⟩)
      ⟨.child, .ofTag "ul"⟩ = [⟨4, [2]⟩] := by decide +kernel
  have rounds : twoItems.host.Rounds ⟨"div ul > li +".toList, .combinator, false⟩
      ((twoItems.host.seeds 0 (.ofTag "li")).map Context.seed)
      [⟨.adjacent, .ofTag "li"⟩, ⟨.child, .ofTag "ul"⟩] ⟨"div".toList, .combinator, false⟩
      [⟨4, [2]⟩] :=
    .round (by decide) first read (.round (by decide) second (by decide +kernel) (narrowed ▸ .none))
  have after := (Host.contexts_after_rounds twoItems.host 0 taken read).1 _ _ _ rounds
  exact ⟨taken, read, seeds, rounds, after.1, [4], by decide +kernel⟩

end TreeQuery
