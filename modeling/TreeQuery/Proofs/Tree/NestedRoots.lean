import Mathlib.Data.List.Lex
import TreeQuery.Proofs.Document.Rendering
import TreeQuery.Proofs.Tree.Loading
/-!
# Roots below the top of a document

A node of a document is named by its position: the places to go to, step by step, from the top down
to it. Positions are compared place by place, and a position comes before those that go on from it,
so the lexicographic order of positions is document order. Loading a document fails exactly when
there is a root below its top, and the error counts the steps to the first one
(`Tree.ofDocument_error`), however far up a later one is. Documents that are attached fail in the
same way from the step that they stand at (`Tree.attachAll_outcome`).
-/
namespace TreeQuery

namespace Document

/-- The part of a document at a position. -/
def at? : Document → List Nat → Option Document
  | top, [] => some top
  | top, index :: below => top.inner[index]?.bind fun part => part.at? below

/-- Whether there is a root at a position. -/
def RootAt (document : Document) (position : List Nat) : Prop :=
  ∃ inner, document.at? position = some (.document inner)

/-- Whether there is a root at a position below the top. -/
def NestedAt (document : Document) (position : List Nat) : Prop :=
  position ≠ [] ∧ document.RootAt position

/-- Whether the first root below the top, in document order, is at a position. -/
def FirstNested (document : Document) (position : List Nat) : Prop :=
  document.NestedAt position ∧
    ∀ other, document.NestedAt other → other ≠ position → List.Lex (· < ·) position other

/-- There is one first root below the top. -/
theorem FirstNested.unique {document : Document} {position other : List Nat}
    (first : document.FirstNested position) (firstOther : document.FirstNested other) :
    position = other := by
  by_contra different
  have before := first.2 other firstOther.1 (Ne.symm different)
  exact asymm before (firstOther.2 position first.1 different)

/-- Where the roots below the top are, depends on what is just below the top alone. -/
theorem nestedAt_congr {document other : Document} (same : document.inner = other.inner)
    (position : List Nat) : document.NestedAt position ↔ other.NestedAt position := by
  cases position with
  | nil => simp [NestedAt]
  | cons index below => simp [NestedAt, RootAt, at?, same]

/-- A part has no root at its own top. -/
theorem rootAt_holding_iff {content : Content} {inner : List Document}
    (holds : content.CanHold inner) (position : List Nat) :
    (content.holding inner).RootAt position ↔ (Document.document inner).NestedAt position := by
  have same : (Document.document inner).inner = (content.holding inner).inner :=
    (inner_holding holds).symm
  rw [nestedAt_congr same, NestedAt, iff_and_self]
  rintro ⟨below, root⟩ rfl
  cases holds <;> cases root

/-- Below the top there is no root where nothing is. -/
theorem not_nestedAt_nil (position : List Nat) : ¬(Document.document []).NestedAt position := by
  rintro ⟨filled, below, root⟩
  cases position with
  | nil => exact filled rfl
  | cons index below => simp [at?, inner] at root

section Cons

variable {first : Document} {later : List Document}

/-- The roots in the first document are at the positions that start with the first place. -/
theorem nestedAt_cons_zero (below : List Nat) :
    (Document.document (first :: later)).NestedAt (0 :: below) ↔ first.RootAt below := by
  simp [NestedAt, RootAt, at?, inner]

/-- The roots behind the first document are one place further on. -/
theorem nestedAt_cons_succ (index : Nat) (below : List Nat) :
    (Document.document (first :: later)).NestedAt ((index + 1) :: below) ↔
      (Document.document later).NestedAt (index :: below) := by
  simp [NestedAt, RootAt, at?, inner]

/-- The first root in the first document is the first of all. -/
theorem firstNested_cons_zero {below : List Nat} (root : first.RootAt below)
    (least : ∀ other, first.RootAt other → other ≠ below → List.Lex (· < ·) below other) :
    (Document.document (first :: later)).FirstNested (0 :: below) := by
  refine ⟨(nestedAt_cons_zero below).mpr root, fun other nested different => ?_⟩
  match other with
  | [] => exact absurd rfl nested.1
  | 0 :: further =>
    have apart : further ≠ below := fun same => different (congrArg (0 :: ·) same)
    exact .cons (least further ((nestedAt_cons_zero further).mp nested) apart)
  | (_ + 1) :: _ => exact .rel (Nat.succ_pos _)

/-- A root in front comes before the roots in it. -/
theorem firstNested_document (inside : List Document) :
    (Document.document (.document inside :: later)).FirstNested [0] := by
  refine firstNested_cons_zero ⟨inside, rfl⟩ fun other _ different => ?_
  obtain ⟨index, below, rfl⟩ := List.exists_cons_of_ne_nil different
  exact .nil

/-- The first root in a part in front is the first of all. -/
theorem FirstNested.inside {content : Content} {inside : List Document}
    (holds : content.CanHold inside) {below : List Nat}
    (root : (Document.document inside).FirstNested below) :
    (Document.document (content.holding inside :: later)).FirstNested (0 :: below) :=
  firstNested_cons_zero ((rootAt_holding_iff holds below).mpr root.1) fun other rootToo =>
    root.2 other ((rootAt_holding_iff holds other).mp rootToo)

/-- Without a root in the first document, the first root behind it is the first of all. -/
theorem FirstNested.behind (clean : ∀ below, ¬first.RootAt below) {index : Nat} {below : List Nat}
    (root : (Document.document later).FirstNested (index :: below)) :
    (Document.document (first :: later)).FirstNested ((index + 1) :: below) := by
  refine ⟨(nestedAt_cons_succ index below).mpr root.1, fun other nested different => ?_⟩
  match other with
  | [] => exact absurd rfl nested.1
  | 0 :: further => exact absurd ((nestedAt_cons_zero further).mp nested) (clean further)
  | (place + 1) :: further =>
    have apart : place :: further ≠ index :: below := by
      rintro ⟨⟩
      exact different rfl
    have before := root.2 (place :: further) ((nestedAt_cons_succ place further).mp nested) apart
    cases before with
    | rel earlier => exact .rel (Nat.succ_lt_succ earlier)
    | cons further => exact .cons further

/-- Without a root in the first document or behind it there is none. -/
theorem not_nestedAt_cons (clean : ∀ below, ¬first.RootAt below)
    (cleanBehind : ∀ position, ¬(Document.document later).NestedAt position)
    (position : List Nat) : ¬(Document.document (first :: later)).NestedAt position := by
  intro nested
  match position with
  | [] => exact nested.1 rfl
  | 0 :: below => exact clean below ((nestedAt_cons_zero below).mp nested)
  | (index + 1) :: below => exact cleanBehind _ ((nestedAt_cons_succ index below).mp nested)

end Cons

end Document

namespace Tree

/-- Attaching documents one step below a depth succeeds when there is no root among them, and
otherwise fails with the number of steps to the first one. -/
theorem attachAll_outcome (documents : List Document) (tree : Tree) (parent : NodeId)
    (depth : Nat) :
    ((∃ grown, tree.attachAll parent (depth + 1) documents = .ok grown) ∧
        ∀ position, ¬(Document.document documents).NestedAt position) ∨
      ∃ position, (Document.document documents).FirstNested position ∧
        tree.attachAll parent (depth + 1) documents =
          .error (.nested (depth + position.length)) := by
  induction documents using Document.list_induction generalizing tree parent depth with
  | nil => exact .inl ⟨⟨tree, rfl⟩, Document.not_nestedAt_nil⟩
  | document inner later _ _ =>
    refine .inr ⟨[0], Document.firstNested_document inner, ?_⟩
    rw [attachAll, attach]
    rfl
  | part content inner later holds below behind =>
    rw [attachAll_holding tree parent (depth + 1) holds]
    rcases below (tree.add parent content) tree.size (depth + 1) with
      ⟨⟨middle, attached⟩, clean⟩ | ⟨position, root, failed⟩
    · have partClean : ∀ position, ¬(content.holding inner).RootAt position :=
        fun position => mt (Document.rootAt_holding_iff holds position).mp (clean position)
      rw [attached]
      rcases behind middle parent depth with ⟨grown, cleanBehind⟩ | ⟨position, root, failed⟩
      · exact .inl ⟨grown, Document.not_nestedAt_cons partClean cleanBehind⟩
      · cases position with
        | nil => exact absurd rfl root.1.1
        | cons index rest => exact .inr ⟨(index + 1) :: rest, root.behind partClean, failed⟩
    · refine .inr ⟨0 :: position, root.inside holds, ?_⟩
      rw [failed, List.length_cons, Nat.add_right_comm, Nat.add_assoc]
      rfl

/-- Loading a document attaches what is just below its top one step down. -/
theorem exists_ofDocument_eq (document : Document) :
    ∃ (tree : Tree) (parent : NodeId),
      ofDocument document = tree.attachAll parent 1 document.inner := by
  cases document with
  | document children => exact ⟨empty, root, rfl⟩
  | element tag attributes children => exact ⟨empty.add root (.element tag attributes), 1, rfl⟩
  | text data => exact ⟨empty.add root (.text data), 1, rfl⟩
  | comment data => exact ⟨empty.add root (.comment data), 1, rfl⟩

/-- Loading a document fails exactly when there is a root below its top, and then with the number of
steps from the top to the first such root in document order. Loading a text that writes the document
comes to the same. -/
theorem ofDocument_error (document : Document) :
    ((∃ error, ofDocument document = .error error) ↔ ∃ position, document.NestedAt position) ∧
    (∀ error, ofDocument document = .error error ↔
      ∃ position, document.FirstNested position ∧ error = .nested position.length) ∧
    ∀ text, Document.ofText? text = some document → ofText text = ofDocument document := by
  have sameText : ∀ text, Document.ofText? text = some document →
      ofText text = ofDocument document := by
    intro text written
    rw [ofText, written]
  obtain ⟨tree, parent, loads⟩ := exists_ofDocument_eq document
  have sameRoots : ∀ position, (Document.document document.inner).NestedAt position ↔
      document.NestedAt position := Document.nestedAt_congr rfl
  rcases attachAll_outcome document.inner tree parent 0 with
    ⟨⟨grown, attached⟩, clean⟩ | ⟨position, first, failed⟩
  · rw [← loads] at attached
    have none : ∀ position, ¬document.NestedAt position :=
      fun position => mt (sameRoots position).mpr (clean position)
    refine ⟨?_, fun error => ?_, sameText⟩
    · rw [attached]
      exact ⟨nofun, fun ⟨position, nested⟩ => absurd nested (none position)⟩
    · rw [attached]
      exact ⟨nofun, fun ⟨position, root, _⟩ => absurd root.1 (none position)⟩
  · rw [← loads, Nat.zero_add] at failed
    have root : document.FirstNested position :=
      ⟨(sameRoots position).mp first.1,
        fun other nested => first.2 other ((sameRoots other).mpr nested)⟩
    refine ⟨⟨fun _ => ⟨position, root.1⟩, fun _ => ⟨_, failed⟩⟩, fun error => ?_, sameText⟩
    rw [failed, Except.error.injEq]
    constructor
    · exact fun same => ⟨position, root, same.symm⟩
    · rintro ⟨other, rootToo, rfl⟩
      rw [root.unique rootToo]

/-- A division that holds a root three steps down and behind it another one just below the top. -/
def divisionWithRoots : Document :=
  .element "div" .empty
    [.text "one", .element "p" .empty [.element "b" .empty [.document [.document []]]],
      .document []]

/-- The error counts the steps to the deeper root, which comes first, in the text that the division
is written as too. -/
theorem ofDocument_error_divisionWithRoots :
    Document.ofText? divisionWithRoots.toText = some divisionWithRoots ∧
    divisionWithRoots.NestedAt [1, 0, 0] ∧ divisionWithRoots.NestedAt [2] ∧
    ofDocument divisionWithRoots = .error (.nested 3) ∧
    (∃ position, divisionWithRoots.FirstNested position ∧
      DocumentError.nested 3 = .nested position.length) ∧
    ofText divisionWithRoots.toText = ofDocument divisionWithRoots := by
  have written := Document.ofText?_toText (show divisionWithRoots.toJson.depth ≤ 127 by decide)
  have failed : ofDocument divisionWithRoots = .error (.nested 3) := rfl
  obtain ⟨-, errors, sameText⟩ := ofDocument_error divisionWithRoots
  exact ⟨written, ⟨nofun, _, rfl⟩, ⟨nofun, _, rfl⟩, failed, (errors (.nested 3)).mp failed,
    sameText _ written⟩

end Tree

end TreeQuery
