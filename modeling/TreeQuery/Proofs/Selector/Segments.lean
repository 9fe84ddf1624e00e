import Mathlib.Data.List.Forall2
import TreeQuery.Selector.Query
/-!
# Segments

A cursor hands out segments one by one, and ends after the leftmost token or an error
(`Cursor.Yields`): these are its `Cursor.segments` and no others. Taking a token or a combinator
hands out the first of them, and a selector whose segments are tokens that can be read, with
combinators between them that can be searched for, is read as the query that they write
(`Query.outcome_parse_of_segments`).
-/
namespace TreeQuery

namespace Cursor

/-- A cursor hands out these results one by one, and then nothing. -/
inductive Yields : Cursor → List (Except SelectorError Segment) → Prop
  /-- Nothing is left to hand out. -/
  | done {cursor after : Cursor} (taken : cursor.take = (none, after)) : Yields cursor []
  /-- One result is handed out, and the others after it. -/
  | more {cursor after : Cursor} {result : Except SelectorError Segment}
    {results : List (Except SelectorError Segment)} (taken : cursor.take = (some result, after))
    (later : Yields after results) : Yields cursor (result :: results)

/-- A cursor that failed hands out nothing. -/
theorem take_of_failed {cursor : Cursor} (failed : cursor.failed) :
    cursor.take = (none, cursor) := by
  rw [take, if_pos failed]

/-- A cursor that hands out an error has failed. -/
theorem failed_of_take_error {cursor after : Cursor} {error : SelectorError}
    (taken : cursor.take = (some (.error error), after)) : after.failed := by
  unfold take at taken
  split at taken
  · cases taken
  · split at taken
    · split at taken
      · cases taken
      · cases taken
        rfl
    · split at taken
      · cases taken
      · split at taken
        · cases taken
        · cases taken
          rfl

/-- Nothing is handed out after an error. -/
theorem take_of_take_error {cursor after : Cursor} {error : SelectorError}
    (taken : cursor.take = (some (.error error), after)) : after.take = (none, after) :=
  take_of_failed (failed_of_take_error taken)

/-- A cursor hands out its segments. -/
theorem yields_segments (cursor : Cursor) : cursor.Yields cursor.segments := by
  unfold segments
  fun_induction trace cursor with
  | case1 cursor after taken => exact .done taken
  | case2 cursor error after taken => exact .more taken (.done (take_of_take_error taken))
  | case3 cursor segment after taken smaller ih => exact .more taken ih

/-- A cursor hands out nothing but its segments. -/
theorem eq_segments_of_yields {cursor : Cursor} {results : List (Except SelectorError Segment)}
    (yields : cursor.Yields results) : results = cursor.segments := by
  have own := yields_segments cursor
  generalize cursor.segments = listed at own ⊢
  induction yields generalizing listed with
  | done taken =>
    cases own with
    | done _ => rfl
    | more other _ =>
      rw [taken] at other
      cases other
  | more taken _ ih =>
    cases own with
    | done other =>
      rw [taken] at other
      cases other
    | more other later =>
      rw [taken] at other
      cases other
      rw [ih _ later]

/-- A cursor that expects a token and can take one hands it out. -/
theorem segments_of_takeToken {cursor after : Cursor} {token : List Char}
    (sound : cursor.failed = false) (expects : cursor.expects = .token)
    (taken : cursor.takeToken = (.ok token, after)) :
    cursor.segments = .ok (.token token) :: after.segments := by
  refine (eq_segments_of_yields (.more ?_ after.yields_segments)).symm
  simp [take, sound, expects, taken]

/-- A cursor that expects a token and can take none hands out the error. -/
theorem segments_of_takeToken_error {cursor after : Cursor} {error : SelectorError}
    (sound : cursor.failed = false) (expects : cursor.expects = .token)
    (taken : cursor.takeToken = (.error error, after)) : cursor.segments = [.error error] := by
  have handed : cursor.take = (some (.error error), { after with failed := true }) := by
    simp [take, sound, expects, taken]
  exact (eq_segments_of_yields (.more handed (.done (take_of_take_error handed)))).symm

/-- A cursor that expects a combinator and has nothing left hands out nothing. -/
theorem segments_of_exhausted {cursor : Cursor} (expects : cursor.expects = .combinator)
    (done : cursor.exhausted) : cursor.segments = [] := by
  have nothing : cursor.take = (none, cursor) := by
    cases failed : cursor.failed <;> simp [take, failed, expects, done]
  exact (eq_segments_of_yields (.done nothing)).symm

/-- A cursor that expects a combinator and can take one hands it out. -/
theorem segments_of_takeCombinator {cursor after : Cursor} {combinator : Combinator}
    (sound : cursor.failed = false) (expects : cursor.expects = .combinator)
    (more : ¬cursor.exhausted) (taken : cursor.takeCombinator = (.ok combinator, after)) :
    cursor.segments = .ok (.combinator combinator) :: after.segments := by
  refine (eq_segments_of_yields (.more ?_ after.yields_segments)).symm
  simp [take, sound, expects, more, taken]

/-- A cursor that expects a combinator and can take none hands out the error. -/
theorem segments_of_takeCombinator_error {cursor after : Cursor} {error : SelectorError}
    (sound : cursor.failed = false) (expects : cursor.expects = .combinator)
    (more : ¬cursor.exhausted) (taken : cursor.takeCombinator = (.error error, after)) :
    cursor.segments = [.error error] := by
  have handed : cursor.take = (some (.error error), { after with failed := true }) := by
    simp [take, sound, expects, more, taken]
  exact (eq_segments_of_yields (.more handed (.done (take_of_take_error handed)))).symm

/-- Taking a token does not make a cursor fail. -/
theorem failed_of_takeToken {cursor after : Cursor} {result : Except SelectorError (List Char)}
    (taken : cursor.takeToken = (result, after)) : after.failed = cursor.failed := by
  unfold takeToken at taken
  split at taken <;> (cases taken; rfl)

/-- Taking a combinator does not make a cursor fail. -/
theorem failed_of_takeCombinator {cursor after : Cursor}
    {result : Except SelectorError Combinator} (taken : cursor.takeCombinator = (result, after)) :
    after.failed = cursor.failed := by
  unfold takeCombinator at taken
  split at taken
  · cases taken
    rfl
  · simp only at taken
    split at taken
    · cases taken
      rfl
    · split at taken <;> (cases taken; rfl)

/-- A cursor that hands out a token first has taken it. -/
theorem exists_of_segments_token {cursor : Cursor} {token : List Char}
    {later : List (Except SelectorError Segment)} (sound : cursor.failed = false)
    (expects : cursor.expects = .token)
    (segments : cursor.segments = .ok (.token token) :: later) :
    ∃ after, cursor.takeToken = (.ok token, after) ∧ after.segments = later := by
  cases taken : cursor.takeToken with
  | mk result after =>
    cases result with
    | error error =>
      rw [segments_of_takeToken_error sound expects taken] at segments
      cases segments
    | ok found =>
      rw [segments_of_takeToken sound expects taken] at segments
      cases segments
      exact ⟨after, rfl, rfl⟩

/-- A cursor that hands out a combinator first has something left and has taken it. -/
theorem exists_of_segments_combinator {cursor : Cursor} {combinator : Combinator}
    {later : List (Except SelectorError Segment)} (sound : cursor.failed = false)
    (expects : cursor.expects = .combinator)
    (segments : cursor.segments = .ok (.combinator combinator) :: later) :
    ¬cursor.exhausted ∧
      ∃ after, cursor.takeCombinator = (.ok combinator, after) ∧ after.segments = later := by
  have more : ¬cursor.exhausted := by
    intro done
    rw [segments_of_exhausted expects done] at segments
    cases segments
  refine ⟨more, ?_⟩
  cases taken : cursor.takeCombinator with
  | mk result after =>
    cases result with
    | error error =>
      rw [segments_of_takeCombinator_error sound expects more taken] at segments
      cases segments
    | ok found =>
      rw [segments_of_takeCombinator sound expects more taken] at segments
      cases segments
      exact ⟨after, rfl, rfl⟩

/-- A cursor that expects a combinator and hands out nothing has nothing left. -/
theorem exhausted_of_segments_eq_nil {cursor : Cursor} (sound : cursor.failed = false)
    (expects : cursor.expects = .combinator) (segments : cursor.segments = []) :
    cursor.exhausted := by
  by_contra more
  cases taken : cursor.takeCombinator with
  | mk result after =>
    cases result with
    | error error =>
      rw [segments_of_takeCombinator_error sound expects more taken] at segments
      cases segments
    | ok found =>
      rw [segments_of_takeCombinator sound expects more taken] at segments
      cases segments

end Cursor

/-- The segments of a token and of the combinators and tokens to its left, from the right. -/
def Segment.ofParts (token : List Char) (left : List (Combinator × List Char)) : List Segment :=
  .token token :: left.flatMap fun part => [.combinator part.1, .token part.2]

/-- A combinator and a token write a step: the combinator can be searched for, and the token can
be read. -/
structure Step.Written (part : Combinator × List Char) (step : Step) : Prop where
  /-- The relation is the one to search for. -/
  relation : part.1.relation? = some step.relation
  /-- The compound selector is the one that the token writes. -/
  compound : (Compound.parse part.2).outcome = .ok step.compound

namespace Query

/-- A cursor that hands out combinators and tokens has the steps in front of it that they write. -/
theorem outcome_stepsFrom_of_segments {left : List (Combinator × List Char)} {steps : List Step}
    (written : List.Forall₂ Step.Written left steps) {cursor : Cursor}
    (sound : cursor.failed = false) (expects : cursor.expects = .combinator)
    (segments : cursor.segments =
      (left.flatMap fun part => [Segment.combinator part.1, .token part.2]).map .ok) :
    (stepsFrom cursor).outcome = .ok steps := by
  induction written generalizing cursor with
  | nil =>
    rw [stepsFrom_of_exhausted (Cursor.exhausted_of_segments_eq_nil sound expects segments)]
    rfl
  | @cons part step left steps first _ ih =>
    obtain ⟨combinator, token⟩ := part
    obtain ⟨more, after, related, behind⟩ :=
      Cursor.exists_of_segments_combinator sound expects segments
    have ready : after.failed = false := by rw [Cursor.failed_of_takeCombinator related, sound]
    obtain ⟨rest, ending, later⟩ := Cursor.exists_of_segments_token ready
      (Cursor.expects_of_takeCombinator related) behind
    have still : rest.failed = false := by rw [Cursor.failed_of_takeToken ending, ready]
    have taken : cursor.takeStep = (.ok (step.relation, token), rest) := by
      simp [Cursor.takeStep, related, first.relation, ending]
    have others := ih still (Cursor.expects_of_takeToken ending) later
    rw [stepsFrom_of_step more taken, Diagnosed.outcome_bind_of_ok first.compound,
      Diagnosed.outcome_bind_of_ok others, Diagnosed.outcome_pure]

/-- A selector whose cursor hands out a token, combinators and tokens is the query that they
write. -/
theorem outcome_parse_of_segments {selector : String} {token : List Char}
    {left : List (Combinator × List Char)} {subject : Compound} {steps : List Step}
    (segments : (Cursor.ofSelector selector).segments = (Segment.ofParts token left).map .ok)
    (subjectRead : (Compound.parse token).outcome = .ok subject)
    (written : List.Forall₂ Step.Written left steps) :
    (parse selector).outcome = .ok ⟨subject, steps⟩ := by
  obtain ⟨rest, taken, later⟩ := Cursor.exists_of_segments_token rfl rfl segments
  have sound : rest.failed = false := Cursor.failed_of_takeToken taken
  have stepsRead :=
    outcome_stepsFrom_of_segments written sound (Cursor.expects_of_takeToken taken) later
  rw [parse, taken]
  simp only
  rw [Diagnosed.outcome_bind_of_ok subjectRead, Diagnosed.outcome_bind_of_ok stepsRead,
    Diagnosed.outcome_pure]

/-- A cursor with steps in front of it hands out combinators and tokens that write them. -/
theorem exists_segments_of_stepsFrom {cursor : Cursor} {steps : List Step}
    (sound : cursor.failed = false) (expects : cursor.expects = .combinator)
    (read : (stepsFrom cursor).outcome = .ok steps) :
    ∃ left, List.Forall₂ Step.Written left steps ∧ cursor.segments =
      (left.flatMap fun part => [Segment.combinator part.1, .token part.2]).map .ok := by
  fun_induction stepsFrom cursor generalizing steps with
  | case1 cursor done =>
    cases read
    exact ⟨[], .nil, Cursor.segments_of_exhausted expects done⟩
  | case2 cursor more error after taken => cases read
  | case3 cursor more relation token rest taken shorter ih =>
    obtain ⟨combinator, after, related, searched, ending⟩ := Cursor.exists_of_takeStep taken
    have ready : after.failed = false := by rw [Cursor.failed_of_takeCombinator related, sound]
    have still : rest.failed = false := by rw [Cursor.failed_of_takeToken ending, ready]
    obtain ⟨compound, compoundRead, behind⟩ := Diagnosed.exists_of_outcome_bind read
    obtain ⟨later, laterRead, same⟩ := Diagnosed.exists_of_outcome_bind behind
    cases same
    obtain ⟨left, written, segments⟩ := ih still (Cursor.expects_of_takeToken ending) laterRead
    refine ⟨(combinator, token) :: left, .cons ⟨searched, compoundRead⟩ written, ?_⟩
    rw [Cursor.segments_of_takeCombinator sound expects more related,
      Cursor.segments_of_takeToken ready (Cursor.expects_of_takeCombinator related) ending,
      segments]
    rfl

/-- A selector that is a query has a token, combinators and tokens that write it. -/
theorem exists_segments_of_parse {selector : String} {query : Query}
    (read : (parse selector).outcome = .ok query) :
    ∃ token left, (Cursor.ofSelector selector).segments = (Segment.ofParts token left).map .ok ∧
      (Compound.parse token).outcome = .ok query.subject ∧
      List.Forall₂ Step.Written left query.steps := by
  unfold parse at read
  split at read
  · cases read
  · rename_i token rest taken
    obtain ⟨subject, subjectRead, behind⟩ := Diagnosed.exists_of_outcome_bind read
    obtain ⟨steps, stepsRead, same⟩ := Diagnosed.exists_of_outcome_bind behind
    cases same
    have sound : rest.failed = false := Cursor.failed_of_takeToken taken
    obtain ⟨left, written, segments⟩ :=
      exists_segments_of_stepsFrom sound (Cursor.expects_of_takeToken taken) stepsRead
    refine ⟨token, left, ?_, subjectRead, written⟩
    rw [Cursor.segments_of_takeToken rfl rfl taken, segments]
    rfl

/-- The compound selectors of a query, that of its subject first. -/
def compounds (query : Query) : List Compound := query.subject :: query.steps.map Step.compound

/-- Every step is written by a combinator and a token. -/
theorem exists_written_of_mem {left : List (Combinator × List Char)} {steps : List Step}
    (written : List.Forall₂ Step.Written left steps) {step : Step} (listed : step ∈ steps) :
    ∃ part ∈ left, Step.Written part step := by
  induction written with
  | nil => cases listed
  | @cons part first left steps writes _ ih =>
    rcases List.mem_cons.mp listed with rfl | later
    · exact ⟨part, List.mem_cons_self, writes⟩
    · obtain ⟨other, among, writesOther⟩ := ih later
      exact ⟨other, List.mem_cons_of_mem _ among, writesOther⟩

/-- Every step of a query is written by a combinator and a token among the segments. -/
theorem exists_segments_of_mem_steps {selector : String} {query : Query}
    (read : (parse selector).outcome = .ok query) {step : Step} (listed : step ∈ query.steps) :
    ∃ combinator token, .ok (.combinator combinator) ∈ (Cursor.ofSelector selector).segments ∧
      .ok (.token token) ∈ (Cursor.ofSelector selector).segments ∧
      Step.Written (combinator, token) step := by
  obtain ⟨first, left, segments, _, written⟩ := exists_segments_of_parse read
  obtain ⟨⟨combinator, token⟩, among, writes⟩ := exists_written_of_mem written listed
  have inside : ∀ segment ∈ [Segment.combinator combinator, .token token],
      Except.ok segment ∈ (Cursor.ofSelector selector).segments := by
    intro segment part
    rw [segments]
    exact List.mem_map_of_mem
      (List.mem_cons_of_mem _ (List.mem_flatMap.mpr ⟨(combinator, token), among, part⟩))
  exact ⟨combinator, token, inside _ (by simp), inside _ (by simp), writes⟩

/-- Every compound selector of a query is written by a token among the segments. -/
theorem exists_token_of_mem_compounds {selector : String} {query : Query}
    (read : (parse selector).outcome = .ok query) {compound : Compound}
    (listed : compound ∈ query.compounds) :
    ∃ token, .ok (.token token) ∈ (Cursor.ofSelector selector).segments ∧
      (Compound.parse token).outcome = .ok compound := by
  rcases List.mem_cons.mp listed with rfl | later
  · obtain ⟨token, left, segments, subjectRead, _⟩ := exists_segments_of_parse read
    exact ⟨token, by simp [segments, Segment.ofParts], subjectRead⟩
  · obtain ⟨step, among, rfl⟩ := List.mem_map.mp later
    obtain ⟨_, token, _, inside, writes⟩ := exists_segments_of_mem_steps read among
    exact ⟨token, inside, writes.compound⟩

end Query

end TreeQuery
