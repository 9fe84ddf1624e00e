import TreeQuery.Proofs.Selector.Reading
import TreeQuery.Select
/-!
# When selecting fails

Selecting narrows contexts while it takes a selector apart, and a reading of the selector looks at
no tree at all. They fail alike: selecting ends with the error that ends the reading, on every
tree, from every scope, and also when no context is left. Where selecting does not fail on one
tree it fails on none, and a selector read as far as a general sibling combinator selects nothing
anywhere.
-/
namespace TreeQuery

namespace Host

variable {ν : Type} [DecidableEq ν]

/-- Selecting ends with an error when the reading of the selector does. -/
theorem outcome_selectBelow_eq_error_iff (host : Host ν) (scope : ν) (selector : String)
    (error : SelectorError) : (host.selectBelow scope selector).outcome = .error error ↔
      (Reading.ofSelector selector).error = some error := by
  rw [Reading.error_ofSelector_eq_some_iff, outcome_selectBelow]
  cases (Query.parse selector).outcome <;> simp [Except.map]

/-- Selecting gives nodes when the reading of the selector ends well. -/
theorem exists_outcome_selectBelow_eq_ok (host : Host ν) (scope : ν) {selector : String}
    (well : (Reading.ofSelector selector).error = none) :
    ∃ selected, (host.selectBelow scope selector).outcome = .ok selected := by
  cases found : (host.selectBelow scope selector).outcome with
  | ok selected => exact ⟨selected, rfl⟩
  | error error =>
    rw [outcome_selectBelow_eq_error_iff, well] at found
    cases found

end Host

/-- Selecting fails as the reading of the selector does, and the reading takes what a cursor hands
out. Two trees and scopes have nodes selected both or fail with the same error, and a selector
with a general sibling combinator that the reading comes to fails. -/
theorem selectBelow_fails_as_reading {ν : Type} [DecidableEq ν] (host : Host ν) (scope : ν)
    (selector : String) :
    (∀ error, (host.selectBelow scope selector).outcome = .error error ↔
      (Reading.ofSelector selector).error = some error) ∧
    (Reading.ofSelector selector).Along (Cursor.ofSelector selector).segments ∧
    (∀ (μ : Type) [DecidableEq μ] (other : Host μ) (place : μ),
      (∃ selected found, (host.selectBelow scope selector).outcome = .ok selected ∧
        (other.selectBelow place selector).outcome = .ok found) ∨
      ∃ error, (host.selectBelow scope selector).outcome = .error error ∧
        (other.selectBelow place selector).outcome = .error error) ∧
    (.ok (.combinator .general) ∈ (Reading.ofSelector selector).taken →
      ∀ selected, (host.selectBelow scope selector).outcome ≠ .ok selected) := by
  refine ⟨host.outcome_selectBelow_eq_error_iff scope selector, Reading.along_ofSelector selector,
    ?_, ?_⟩
  · intro μ _ other place
    cases read : (Reading.ofSelector selector).error with
    | none =>
      obtain ⟨selected, here⟩ := host.exists_outcome_selectBelow_eq_ok scope read
      obtain ⟨found, there⟩ := other.exists_outcome_selectBelow_eq_ok place read
      exact .inl ⟨selected, found, here, there⟩
    | some error =>
      exact .inr ⟨error, (host.outcome_selectBelow_eq_error_iff scope selector error).mpr read,
        (other.outcome_selectBelow_eq_error_iff place selector error).mpr read⟩
  · intro met selected
    have failed := (host.outcome_selectBelow_eq_error_iff scope selector
      (.unsupported .general)).mpr (Reading.error_ofSelector_of_mem_general selector met)
    rw [failed]
    exact nofun

end TreeQuery
