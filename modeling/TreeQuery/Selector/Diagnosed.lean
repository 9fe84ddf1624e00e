import TreeQuery.Notice
import TreeQuery.Selector.Error

/-!
# Results with notices

Reading a selector gives a value or an error, and notices either way: those given before an error
stay. `Diagnosed` is such a result; in a sequence the notices come in order and the first error
ends it.
-/
namespace TreeQuery

/-- Values and errors can be compared when both kinds can. -/
instance exceptDecidableEq {ε α : Type} [DecidableEq ε] [DecidableEq α] :
    DecidableEq (Except ε α)
  | .ok first, .ok second => decidable_of_iff (first = second) (by simp)
  | .error first, .error second => decidable_of_iff (first = second) (by simp)
  | .ok _, .error _ => isFalse nofun
  | .error _, .ok _ => isFalse nofun

/-- A value or an error, with the notices given on the way. -/
@[ext]
structure Diagnosed (α : Type) where
  /-- The notices, the oldest first. -/
  notices : List Notice
  /-- The value, or why there is none. -/
  outcome : Except SelectorError α

namespace Diagnosed

variable {α β γ : Type}

/-- A value without notices. -/
def ok (value : α) : Diagnosed α := ⟨[], .ok value⟩

/-- An error without notices. -/
def fail (error : SelectorError) : Diagnosed α := ⟨[], .error error⟩

/-- A value or an error, without notices. -/
def ofExcept (outcome : Except SelectorError α) : Diagnosed α := ⟨[], outcome⟩

/-- Goes on with the value, if there is one, and keeps the notices of both parts in order. -/
def andThen (first : Diagnosed α) (second : α → Diagnosed β) : Diagnosed β :=
  match first.outcome with
  | .error error => ⟨first.notices, .error error⟩
  | .ok value => ⟨first.notices ++ (second value).notices, (second value).outcome⟩

instance : Monad Diagnosed where
  pure := ok
  bind := andThen

/-- The notices of a sequence are those of its first part, and those of its second part if it is
reached. -/
@[simp] theorem notices_bind (first : Diagnosed α) (second : α → Diagnosed β) :
    (first >>= second).notices = first.notices ++
      match first.outcome with
      | .error _ => []
      | .ok value => (second value).notices := by
  simp only [bind, andThen]
  cases first.outcome <;> simp

/-- A value comes without notices. -/
@[simp] theorem notices_pure (value : α) : (pure value : Diagnosed α).notices = [] := rfl

/-- An error comes without notices. -/
@[simp] theorem notices_fail (error : SelectorError) :
    (fail error : Diagnosed α).notices = [] := rfl

/-- A bare outcome comes without notices. -/
@[simp] theorem notices_ofExcept (outcome : Except SelectorError α) :
    (ofExcept outcome).notices = [] := rfl

/-- Gives a notice. -/
def notice (value : Notice) : Diagnosed Unit := ⟨[value], .ok ()⟩

/-- A sequence has the outcome of its second part, or the error of its first. -/
@[simp] theorem outcome_bind (first : Diagnosed α) (second : α → Diagnosed β) :
    (first >>= second).outcome = first.outcome >>= fun value => (second value).outcome := by
  simp only [bind, andThen, Except.bind]
  cases first.outcome <;> rfl

/-- A value is its own outcome. -/
@[simp] theorem outcome_pure (value : α) : (pure value : Diagnosed α).outcome = .ok value := rfl

/-- An error is its own outcome. -/
@[simp] theorem outcome_fail (error : SelectorError) :
    (fail error : Diagnosed α).outcome = .error error := rfl

/-- A bare outcome is its own outcome. -/
@[simp] theorem outcome_ofExcept (outcome : Except SelectorError α) :
    (ofExcept outcome).outcome = outcome := rfl

/-- After a value, a sequence has the outcome of its second part. -/
theorem outcome_bind_of_ok {first : Diagnosed α} {value : α} (found : first.outcome = .ok value)
    (second : α → Diagnosed β) : (first >>= second).outcome = (second value).outcome := by
  rw [outcome_bind, found]
  rfl

/-- After an error, a sequence has that error. -/
theorem outcome_bind_of_error {first : Diagnosed α} {error : SelectorError}
    (found : first.outcome = .error error) (second : α → Diagnosed β) :
    (first >>= second).outcome = .error error := by
  rw [outcome_bind, found]
  rfl

/-- After a value, a sequence gives the notices of both parts. -/
theorem notices_bind_of_ok {first : Diagnosed α} {value : α} (found : first.outcome = .ok value)
    (second : α → Diagnosed β) :
    (first >>= second).notices = first.notices ++ (second value).notices := by
  rw [notices_bind, found]

/-- A sequence has a value when its first part has one and its second part goes on from there to
that value. -/
theorem exists_of_outcome_bind {first : Diagnosed α} {second : α → Diagnosed β} {value : β}
    (found : (first >>= second).outcome = .ok value) :
    ∃ middle, first.outcome = .ok middle ∧ (second middle).outcome = .ok value := by
  cases outcome : first.outcome with
  | error error =>
    rw [outcome_bind_of_error outcome] at found
    cases found
  | ok middle =>
    rw [outcome_bind_of_ok outcome] at found
    exact ⟨middle, rfl, found⟩

/-- Two ways to go on are the same when they are so from the value of the first part, if it has
one. -/
theorem bind_congr_of_ok {first : Diagnosed α} {second other : α → Diagnosed β}
    (same : ∀ value, first.outcome = .ok value → second value = other value) :
    first >>= second = first >>= other := by
  simp only [bind, andThen]
  split
  · rfl
  · rename_i value found
    rw [same value found]

/-- Going on with a value unchanged changes nothing. -/
theorem andThen_ok (first : Diagnosed α) : andThen first ok = first := by
  obtain ⟨notices, outcome⟩ := first
  cases outcome <;> simp [andThen, ok]

/-- Going on from a bare value is the second part alone. -/
theorem ok_andThen (value : α) (second : α → Diagnosed β) :
    andThen (ok value) second = second value := by
  simp [andThen, ok]

/-- How a sequence is put together does not matter. -/
theorem andThen_assoc (first : Diagnosed α) (second : α → Diagnosed β) (third : β → Diagnosed γ) :
    andThen (andThen first second) third =
      andThen first fun value => andThen (second value) third := by
  simp only [andThen]
  cases first.outcome with
  | error _ => rfl
  | ok value => cases found : (second value).outcome <;> simp [found, List.append_assoc]

instance : LawfulMonad Diagnosed :=
  LawfulMonad.mk' Diagnosed andThen_ok ok_andThen andThen_assoc

/-- The outcome for every item of a list is put together from the outcomes for each. -/
theorem outcome_mapM (read : α → Diagnosed β) (items : List α) :
    (items.mapM read).outcome = items.mapM fun item => (read item).outcome := by
  induction items with
  | nil => rfl
  | cons item others ih =>
    simp only [List.mapM_cons, outcome_bind, ih, outcome_pure]
    rfl

/-- Where every item of a list has a value, the notices for each item are given. -/
theorem mem_notices_mapM {read : α → Diagnosed β} {items : List α} {values : List β}
    (found : (items.mapM read).outcome = .ok values) {item : α} (listed : item ∈ items)
    {notice : Notice} (given : notice ∈ (read item).notices) :
    notice ∈ (items.mapM read).notices := by
  induction items generalizing values with
  | nil => cases listed
  | cons first others ih =>
    rw [List.mapM_cons] at found ⊢
    obtain ⟨value, firstRead, behind⟩ := exists_of_outcome_bind found
    obtain ⟨later, othersRead, -⟩ := exists_of_outcome_bind behind
    rw [notices_bind_of_ok firstRead, notices_bind_of_ok othersRead]
    rcases List.mem_cons.mp listed with rfl | further
    · exact List.mem_append_left _ given
    · exact List.mem_append_right _ (List.mem_append_left _ (ih othersRead further))

end Diagnosed

end TreeQuery
