import TreeQuery.Main
import TreeQuery.Proofs.Select.Abridged
import TreeQuery.Proofs.Select.Assignment
import TreeQuery.Proofs.Select.Failure
import TreeQuery.Proofs.Select.Independence
import TreeQuery.Proofs.Select.Meaning
import TreeQuery.Proofs.Select.Scope
import TreeQuery.Proofs.Selector.WrittenSelector
import TreeQuery.Proofs.Selector.WrittenCompound
import TreeQuery.Proofs.Select.Insertion
import TreeQuery.Proofs.TreeView.Condensed
import TreeQuery.Proofs.Document.Condensed
import TreeQuery.Proofs.Tree.Condensed
import TreeQuery.Proofs.Select.Condensed
import TreeQuery.Proofs.Json.Tokens
import TreeQuery.Proofs.Json.Values
import TreeQuery.Proofs.Document.Rendering
import TreeQuery.Proofs.Tree.Searches
import TreeQuery.Proofs.Tree.Agreement
import TreeQuery.Proofs.Tree.Positions
import TreeQuery.Proofs.Select.DescendantSteps
import TreeQuery.Proofs.Selector.CountingExpressions
import TreeQuery.Proofs.Select.Equivalents
import TreeQuery.Proofs.Selector.Account
import TreeQuery.Proofs.Selector.Faults
import TreeQuery.Proofs.Select.QuotedValue
import TreeQuery.Proofs.Select.SpelledOut
import TreeQuery.Proofs.Select.Names
import TreeQuery.Proofs.Tree.Neighbours
import TreeQuery.Proofs.Tree.NestedRoots
import TreeQuery.Proofs.Selector.PickedPlaces
import TreeQuery.Proofs.Selector.AttributeTests
import TreeQuery.Proofs.Select.UnknownClasses
import TreeQuery.Proofs.Tree.Outline
import TreeQuery.Proofs.Command.Lines
import TreeQuery.Proofs.Notice.Log
import TreeQuery.Proofs.Selector.Remainder
import TreeQuery.Proofs.Tree.OpeningTag
import TreeQuery.Proofs.Select.Rounds
