import TreeQuery.Proofs.Selector.Items
/-!
# Notices of a selector

Reading a selector gives the notices of its tokens, and reading a token those of its pseudo-classes.
In a selector that can be read nothing keeps a notice back: every token of it is read
(`Query.reads_parse`), and of every pseudo-class that is not known it is said so
(`Compound.unsupported_mem_notices`).
-/
namespace TreeQuery

/-- A pseudo-class that is not known gives its notice. -/
theorem PseudoClass.notices_parse_of_unknown {clause : List Char} {name : String}
    (read : (parse clause).outcome = .ok (.unknown name)) :
    (parse clause).notices = [unsupported name] := by
  unfold parse at read ⊢
  split at read
  · cases read
  · cases read
  · obtain ⟨nth, _, known⟩ := Diagnosed.exists_of_outcome_bind read
    cases known
  · cases read
    rfl

/-- A token gives the notices of the pseudo-classes in it that are not known. -/
theorem Compound.unsupported_mem_notices {token : List Char} {compound : Compound}
    (read : (parse token).outcome = .ok compound) {clause : String}
    (unknown : .pseudoClass (.unknown clause) ∈ compound.predicates) :
    PseudoClass.unsupported clause ∈ (parse token).notices := by
  unfold parse at read ⊢
  simp only at read ⊢
  split at read
  · cases read
  · rename_i closed
    rw [if_neg closed]
    obtain ⟨pseudos, pseudosRead, rest⟩ := Diagnosed.exists_of_outcome_bind read
    rw [Diagnosed.notices_bind_of_ok pseudosRead]
    split at rest
    · cases rest
    · cases rest
      have among : .unknown clause ∈ pseudos := by simpa using unknown
      rw [Diagnosed.outcome_mapM] at pseudosRead
      obtain ⟨written, listed, meaning⟩ := exists_mem_of_mapM_eq_ok pseudosRead among
      rw [← Diagnosed.outcome_mapM] at pseudosRead
      refine List.mem_append_left _ (Diagnosed.mem_notices_mapM pseudosRead listed ?_)
      rw [PseudoClass.notices_parse_of_unknown meaning]
      exact List.mem_cons_self

namespace Query

/-- A token of a selector is read for a compound selector among some, and its notices are given. -/
def Reads (token : List Char) (compounds : List Compound) (notices : List Notice) : Prop :=
  (∃ compound ∈ compounds, (Compound.parse token).outcome = .ok compound) ∧
    (Compound.parse token).notices ⊆ notices

/-- A token stays read when more tokens are. -/
theorem Reads.mono {token : List Char} {compounds more : List Compound}
    {notices others : List Notice} (reads : Reads token compounds notices)
    (included : compounds ⊆ more) (kept : notices ⊆ others) : Reads token more others := by
  obtain ⟨⟨compound, listed, read⟩, given⟩ := reads
  exact ⟨⟨compound, included listed, read⟩, List.Subset.trans given kept⟩

/-- Where the steps in front of a cursor can be read, every token that it hands out is. -/
theorem reads_stepsFrom {cursor : Cursor} {steps : List Step} (sound : cursor.failed = false)
    (expects : cursor.expects = .combinator) (read : (stepsFrom cursor).outcome = .ok steps)
    {token : List Char} (listed : .ok (.token token) ∈ cursor.segments) :
    Reads token (steps.map Step.compound) (stepsFrom cursor).notices := by
  fun_induction stepsFrom cursor generalizing steps with
  | case1 cursor done =>
    rw [Cursor.segments_of_exhausted expects done] at listed
    cases listed
  | case2 cursor more error after taken => cases read
  | case3 cursor more relation first rest taken shorter ih =>
    obtain ⟨combinator, after, related, _, ending⟩ := Cursor.exists_of_takeStep taken
    have ready : after.failed = false := by rw [Cursor.failed_of_takeCombinator related, sound]
    have still : rest.failed = false := by rw [Cursor.failed_of_takeToken ending, ready]
    obtain ⟨compound, compoundRead, behind⟩ := Diagnosed.exists_of_outcome_bind read
    obtain ⟨later, laterRead, same⟩ := Diagnosed.exists_of_outcome_bind behind
    cases same
    rw [Cursor.segments_of_takeCombinator sound expects more related,
      Cursor.segments_of_takeToken ready (Cursor.expects_of_takeCombinator related) ending]
      at listed
    rw [Diagnosed.notices_bind_of_ok compoundRead, Diagnosed.notices_bind_of_ok laterRead]
    simp only [List.mem_cons, Except.ok.injEq, Segment.token.injEq, reduceCtorEq, false_or]
      at listed
    rcases listed with rfl | further
    · exact ⟨⟨compound, by simp, compoundRead⟩, List.subset_append_left _ _⟩
    · refine (ih still (Cursor.expects_of_takeToken ending) laterRead further).mono ?_ ?_
      · exact List.subset_cons_self _ _
      · simp

/-- Where a selector can be read, every token of it is. -/
theorem reads_parse {selector : String} {query : Query}
    (read : (parse selector).outcome = .ok query) {token : List Char}
    (listed : .ok (.token token) ∈ (Cursor.ofSelector selector).segments) :
    Reads token query.compounds (parse selector).notices := by
  unfold parse at read ⊢
  split at read
  · cases read
  · rename_i first rest taken
    obtain ⟨subject, subjectRead, behind⟩ := Diagnosed.exists_of_outcome_bind read
    obtain ⟨steps, stepsRead, same⟩ := Diagnosed.exists_of_outcome_bind behind
    cases same
    have sound : rest.failed = false := Cursor.failed_of_takeToken taken
    rw [Cursor.segments_of_takeToken rfl rfl taken] at listed
    rw [Diagnosed.notices_bind_of_ok subjectRead, Diagnosed.notices_bind_of_ok stepsRead]
    rcases List.mem_cons.mp listed with same | further
    · cases same
      exact ⟨⟨subject, List.mem_cons_self, subjectRead⟩, List.subset_append_left _ _⟩
    · refine (reads_stepsFrom sound (Cursor.expects_of_takeToken taken) stepsRead further).mono
        ?_ ?_
      · exact List.subset_cons_self _ _
      · simp

end Query

end TreeQuery
