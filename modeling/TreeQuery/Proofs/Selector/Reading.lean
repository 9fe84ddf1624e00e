import TreeQuery.Proofs.Selector.Segments
/-!
# Readings

There is a second way through a selector beside handing out its segments. A reading takes a token,
then a combinator and a token as long as anything is left, reads each token as soon as it is taken,
and ends at the first thing it cannot use (`Reading`). What it takes is the beginning of what the
cursor hands out, and all of it unless a token cannot be read or a combinator cannot be searched
for (`Reading.Along`); it ends with an error exactly when the selector is no query
(`Reading.error_ofSelector_eq_some_iff`).
-/
namespace TreeQuery

/-- Every combinator but one can be searched for. -/
theorem Combinator.exists_relation?_of_ne_general {combinator : Combinator}
    (searched : combinator = .general → False) :
    ∃ relation, combinator.relation? = some relation := by
  cases combinator with
  | descendant => exact ⟨.descendant, rfl⟩
  | child => exact ⟨.child, rfl⟩
  | adjacent => exact ⟨.adjacent, rfl⟩
  | general => exact absurd rfl searched

/-- What a reading of a selector meets. -/
structure Reading where
  /-- The segments taken, the last of them an error where one could not be made out. -/
  taken : List (Except SelectorError Segment)
  /-- The error that ends the reading, if one does. -/
  error : Option SelectorError

namespace Reading

/-- A reading that has taken some segments before. -/
def behind (segments : List Segment) (reading : Reading) : Reading :=
  { reading with taken := segments.map .ok ++ reading.taken }

/-- A reading that ends at a segment that cannot be made out. -/
def lost (error : SelectorError) : Reading := ⟨[.error error], some error⟩

/-- A reading that ends with an error and takes nothing more. -/
def refused (error : SelectorError) : Reading := ⟨[], some error⟩

/-- Reads a token that was taken, and goes on with a reading when it can be read. -/
def ofToken (token : List Char) (later : Reading) : Reading :=
  match (Compound.parse token).outcome with
  | .error error => refused error
  | .ok _ => later

/-- The reading of what is left behind a token: nothing, or a combinator that can be searched for,
a token that can be read, and what is left behind it. -/
def ofCursor (cursor : Cursor) : Reading :=
  if cursor.exhausted then ⟨[], none⟩
  else
    match related : cursor.takeCombinator with
    | (.error error, _) => lost error
    | (.ok .general, _) => (refused (.unsupported .general)).behind [.combinator .general]
    | (.ok combinator, after) =>
      match taken : after.takeToken with
      | (.error error, _) => (lost error).behind [.combinator combinator]
      | (.ok token, rest) =>
        have := Nat.lt_of_lt_of_le (Cursor.length_lt_of_takeToken taken)
          (Cursor.length_le_of_takeCombinator related)
        (ofToken token (ofCursor rest)).behind [.combinator combinator, .token token]
termination_by cursor.remaining.length

/-- The reading of a selector: its rightmost token, and what is left behind it. -/
def ofSelector (selector : String) : Reading :=
  match (Cursor.ofSelector selector).takeToken with
  | (.error error, _) => lost error
  | (.ok token, rest) => (ofToken token (ofCursor rest)).behind [.token token]

/-- A reading goes along the segments that a cursor hands out: it takes the beginning of them, all
of them when it ends well, and all of them when it ends at one that cannot be made out. -/
structure Along (reading : Reading) (segments : List (Except SelectorError Segment)) : Prop where
  /-- What is taken is handed out first. -/
  isPrefix : reading.taken <+: segments
  /-- A reading that ends well takes everything. -/
  complete : reading.error = none → reading.taken = segments
  /-- A segment that cannot be made out is the end of both. -/
  last : ∀ error, .error error ∈ reading.taken →
    reading.error = some error ∧ reading.taken = segments

/-- Where no segment can be made out, a reading and a cursor end alike. -/
theorem along_lost (error : SelectorError) : (lost error).Along [.error error] where
  isPrefix := List.prefix_rfl
  complete := nofun
  last := by simp [lost]

/-- A reading may end before the cursor does. -/
theorem along_refused (error : SelectorError) (segments : List (Except SelectorError Segment)) :
    (refused error).Along segments where
  isPrefix := List.nil_prefix
  complete := nofun
  last := by simp [refused]

/-- What both have taken before does not part them. -/
theorem Along.behind {reading : Reading} {segments : List (Except SelectorError Segment)}
    (along : reading.Along segments) (before : List Segment) :
    (reading.behind before).Along (before.map .ok ++ segments) where
  isPrefix := (List.prefix_append_right_inj _).mpr along.isPrefix
  complete well := by
    rw [Reading.behind, along.complete well]
  last error inside := by
    have later : .error error ∈ reading.taken := by simpa [Reading.behind] using inside
    obtain ⟨same, whole⟩ := along.last error later
    exact ⟨same, by rw [Reading.behind, whole]⟩

/-- A token that cannot be read ends a reading and not the cursor. -/
theorem Along.ofToken {reading : Reading} {segments : List (Except SelectorError Segment)}
    (along : reading.Along segments) (token : List Char) :
    (Reading.ofToken token reading).Along segments := by
  unfold Reading.ofToken
  split
  · exact along_refused _ segments
  · exact along

/-- The reading of what is left goes along what the cursor hands out. -/
theorem along_ofCursor (cursor : Cursor) (sound : cursor.failed = false)
    (expects : cursor.expects = .combinator) : (ofCursor cursor).Along cursor.segments := by
  fun_induction ofCursor cursor with
  | case1 cursor done =>
    rw [Cursor.segments_of_exhausted expects done]
    exact ⟨List.prefix_rfl, fun _ => rfl, by simp⟩
  | case2 cursor more error after related =>
    rw [Cursor.segments_of_takeCombinator_error sound expects more related]
    exact along_lost error
  | case3 cursor more after related =>
    rw [Cursor.segments_of_takeCombinator sound expects more related]
    exact (along_refused _ after.segments).behind [.combinator .general]
  | case4 cursor more combinator after searched related error rest taken =>
    have ready : after.failed = false := by rw [Cursor.failed_of_takeCombinator related, sound]
    rw [Cursor.segments_of_takeCombinator sound expects more related,
      Cursor.segments_of_takeToken_error ready (Cursor.expects_of_takeCombinator related) taken]
    exact (along_lost error).behind [.combinator combinator]
  | case5 cursor more combinator after searched related token rest taken shorter ih =>
    have ready : after.failed = false := by rw [Cursor.failed_of_takeCombinator related, sound]
    have still : rest.failed = false := by rw [Cursor.failed_of_takeToken taken, ready]
    rw [Cursor.segments_of_takeCombinator sound expects more related,
      Cursor.segments_of_takeToken ready (Cursor.expects_of_takeCombinator related) taken]
    exact ((ih still (Cursor.expects_of_takeToken taken)).ofToken token).behind
      [.combinator combinator, .token token]

/-- The reading of a selector goes along the segments of the selector. -/
theorem along_ofSelector (selector : String) :
    (ofSelector selector).Along (Cursor.ofSelector selector).segments := by
  unfold ofSelector
  split
  · rename_i error after taken
    rw [Cursor.segments_of_takeToken_error rfl rfl taken]
    exact along_lost error
  · rename_i token rest taken
    have sound : rest.failed = false := Cursor.failed_of_takeToken taken
    rw [Cursor.segments_of_takeToken rfl rfl taken]
    exact ((along_ofCursor rest sound (Cursor.expects_of_takeToken taken)).ofToken token).behind
      [.token token]

/-- The steps in front of a cursor fail as the reading of them does. -/
theorem error_ofCursor_eq_some_iff (cursor : Cursor) (error : SelectorError) :
    (ofCursor cursor).error = some error ↔ (Query.stepsFrom cursor).outcome = .error error := by
  fun_induction ofCursor cursor with
  | case1 cursor done => simp [Query.stepsFrom_of_exhausted done]
  | case2 cursor more found after related =>
    have taken : cursor.takeStep = (.error found, after) := by simp [Cursor.takeStep, related]
    simp [Query.stepsFrom_of_error more taken, lost]
  | case3 cursor more after related =>
    have taken : cursor.takeStep = (.error (.unsupported .general), after) := by
      simp [Cursor.takeStep, related, Combinator.relation?]
    simp [Query.stepsFrom_of_error more taken, refused, behind]
  | case4 cursor more combinator after searched related found rest ending =>
    obtain ⟨relation, supported⟩ := Combinator.exists_relation?_of_ne_general searched
    have taken : cursor.takeStep = (.error found, rest) := by
      simp [Cursor.takeStep, related, supported, ending]
    simp [Query.stepsFrom_of_error more taken, lost, behind]
  | case5 cursor more combinator after searched related token rest ending shorter ih =>
    obtain ⟨relation, supported⟩ := Combinator.exists_relation?_of_ne_general searched
    have taken : cursor.takeStep = (.ok (relation, token), rest) := by
      simp [Cursor.takeStep, related, supported, ending]
    rw [Query.stepsFrom_of_step more taken]
    cases read : (Compound.parse token).outcome with
    | error found =>
      rw [Diagnosed.outcome_bind_of_error read]
      simp [behind, ofToken, read, refused]
    | ok compound =>
      rw [Diagnosed.outcome_bind_of_ok read]
      simp only [behind, ofToken, read, ih]
      cases others : (Query.stepsFrom rest).outcome with
      | error found => rw [Diagnosed.outcome_bind_of_error others]
      | ok steps =>
        rw [Diagnosed.outcome_bind_of_ok others, Diagnosed.outcome_pure]
        constructor
        · intro same
          cases same
        · intro same
          cases same

/-- Reading a selector as a query fails as the reading of its segments does. -/
theorem error_ofSelector_eq_some_iff (selector : String) (error : SelectorError) :
    (ofSelector selector).error = some error ↔
      (Query.parse selector).outcome = .error error := by
  unfold ofSelector Query.parse
  rcases (Cursor.ofSelector selector).takeToken with ⟨found | token, rest⟩
  · simp [lost]
  · cases read : (Compound.parse token).outcome with
    | error found =>
      simp only [Diagnosed.outcome_bind_of_error read]
      simp [behind, ofToken, read, refused]
    | ok subject =>
      simp only [Diagnosed.outcome_bind_of_ok read, behind, ofToken, read,
        error_ofCursor_eq_some_iff]
      cases others : (Query.stepsFrom rest).outcome with
      | error found =>
        rw [Diagnosed.outcome_bind_of_error others, Except.error.injEq, Except.error.injEq]
      | ok steps =>
        rw [Diagnosed.outcome_bind_of_ok others, Diagnosed.outcome_pure]
        constructor
        · intro same
          cases same
        · intro same
          cases same

/-- A token that cannot be read leaves nothing else to take. -/
theorem mem_taken_ofToken {token : List Char} {later : Reading}
    {segment : Except SelectorError Segment} (taken : segment ∈ (ofToken token later).taken) :
    segment ∈ later.taken ∧ ofToken token later = later := by
  unfold ofToken at taken ⊢
  split at taken
  · simp [refused] at taken
  · exact ⟨taken, rfl⟩

/-- A reading ends at a general sibling combinator. -/
theorem error_ofCursor_of_mem_general (cursor : Cursor)
    (met : .ok (.combinator .general) ∈ (ofCursor cursor).taken) :
    (ofCursor cursor).error = some (.unsupported .general) := by
  fun_induction ofCursor cursor with
  | case1 cursor done => simp at met
  | case2 cursor more error after related => simp [lost] at met
  | case3 cursor more after related => rfl
  | case4 cursor more combinator after searched related error rest taken =>
    simp only [behind, lost, List.map_cons, List.map_nil, List.mem_append, List.mem_singleton,
      Except.ok.injEq, Segment.combinator.injEq, reduceCtorEq, or_false] at met
    exact absurd met.symm searched
  | case5 cursor more combinator after searched related token rest taken shorter ih =>
    simp only [behind, List.map_cons, List.map_nil, List.mem_append, List.mem_cons,
      Except.ok.injEq, Segment.combinator.injEq, reduceCtorEq, List.not_mem_nil, or_false] at met
    rcases met with first | later
    · exact absurd first.symm searched
    · obtain ⟨inside, same⟩ := mem_taken_ofToken later
      rw [behind, same]
      exact ih inside

/-- The reading of a selector ends at a general sibling combinator. -/
theorem error_ofSelector_of_mem_general (selector : String)
    (met : .ok (.combinator .general) ∈ (ofSelector selector).taken) :
    (ofSelector selector).error = some (.unsupported .general) := by
  unfold ofSelector at met ⊢
  split at met
  · simp [lost] at met
  · rename_i token rest taken
    have later : .ok (.combinator .general) ∈ (ofToken token (ofCursor rest)).taken := by
      simpa [behind] using met
    obtain ⟨inside, same⟩ := mem_taken_ofToken later
    rw [behind, same]
    exact error_ofCursor_of_mem_general rest inside

end Reading

end TreeQuery
