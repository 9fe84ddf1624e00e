import Mathlib.Data.List.Sort
import Mathlib.Data.Prod.Lex
import Mathlib.Data.String.Basic
import TreeQuery.Tree.Render
/-!
# Opening tags

An element is shown by its opening tag, with its attributes in the order of their names. How the
attributes were given leaves no trace in it but the value given last to each name
(`Tree.line_ofPairs`): the names of the pairs, each once and with that value, are the entries of the
attributes (`Attributes.lists_ofPairs`), and in whatever order these are listed, sorting them gives
the one order in which the tag shows them.
-/
namespace TreeQuery

/-- The code points of a text. -/
def codePoints (text : String) : List Nat := text.toList.map Char.toNat

/-- Texts are ordered by their code points. -/
theorem codePoints_lt {former latter : String} (before : former < latter) :
    codePoints former < codePoints latter :=
  List.map_lt (fun _ _ lower => lower) (String.lt_iff_toList_lt.mp before)

namespace Attributes

/-- Whether a value is the one given last to a name, among pairs of names and values. -/
def LastValue (pairs : List (String × String)) (name value : String) : Prop :=
  ∃ before after, pairs = before ++ (name, value) :: after ∧ ∀ pair ∈ after, pair.1 ≠ name

/-- Whether entries list every name that pairs give a value to, once and with its last value. -/
structure Lists (entries pairs : List (String × String)) : Prop where
  /-- No name is listed twice. -/
  once : (entries.map Prod.fst).Nodup
  /-- A name is listed with the value given last to it. -/
  last : ∀ name value, (name, value) ∈ entries ↔ LastValue pairs name value

/-- The attributes that pairs give have for each name the value given last to it. -/
theorem get?_ofPairs_eq_some_iff {pairs : List (String × String)} {name value : String} :
    (ofPairs pairs).get? name = some value ↔ LastValue pairs name value := by
  rw [get?_ofPairs, List.lookup_eq_some_iff]
  constructor
  · rintro ⟨after, before, reversed, none⟩
    refine ⟨before.reverse, after.reverse, ?_, fun pair inside same => ?_⟩
    · rw [← List.reverse_reverse pairs, reversed]
      simp
    · have other := none pair (List.mem_reverse.mp inside)
      simp [same] at other
  · rintro ⟨before, after, rfl, none⟩
    refine ⟨after.reverse, before.reverse, by simp, fun pair inside => ?_⟩
    simpa using (none pair (List.mem_reverse.mp inside)).symm

/-- Attributes list each of their names once. -/
theorem nodup_names (attributes : Attributes) : (attributes.entries.map Prod.fst).Nodup :=
  List.pairwise_map.mpr (attributes.sorted.imp fun before => ne_of_lt before)

/-- The entries of the attributes that pairs give list their names. -/
theorem lists_ofPairs (pairs : List (String × String)) : Lists (ofPairs pairs).entries pairs where
  once := nodup_names _
  last name value := by
    have distinct := List.pairwise_map.mp (ofPairs pairs).nodup_names
    rw [← lookup_eq_some_iff_mem distinct, ← get?_ofPairs_eq_some_iff, get?]

/-- Two lists of the names of some pairs differ in their order alone. -/
theorem Lists.perm {first second pairs : List (String × String)} (lists : Lists first pairs)
    (other : Lists second pairs) : first.Perm second := by
  refine (List.perm_ext_iff_of_nodup (.of_map _ lists.once) (.of_map _ other.once)).mpr ?_
  rintro ⟨name, value⟩
  rw [lists.last, other.last]

/-- Pairs with the same last values give the same attributes. -/
theorem ofPairs_eq_of_lastValue {first second : List (String × String)}
    (same : ∀ name value, LastValue first name value ↔ LastValue second name value) :
    ofPairs first = ofPairs second := by
  refine ext_get? fun name => Option.ext fun value => ?_
  rw [get?_ofPairs_eq_some_iff, get?_ofPairs_eq_some_iff, same]

/-- Entries in order: by their names, and by their values under one name. -/
def sort (entries : List (String × String)) : List (String × String) :=
  entries.mergeSort fun former latter => decide (toLex former ≤ toLex latter)

/-- In whatever order the names of some pairs are listed, sorted they are the entries of the
attributes that the pairs give. -/
theorem sort_eq_entries {listing pairs : List (String × String)} (lists : Lists listing pairs) :
    sort listing = (ofPairs pairs).entries := by
  have sorted : (ofPairs pairs).entries.Pairwise fun former latter =>
      toLex former ≤ toLex latter :=
    (ofPairs pairs).sorted.imp fun before => Prod.Lex.toLex_le_toLex.mpr (.inl before)
  refine List.Perm.eq_of_pairwise (fun former latter _ _ below above => ?_)
    (List.pairwise_mergeSort' (fun former latter => toLex former ≤ toLex latter) listing) sorted
    ((List.mergeSort_perm listing _).trans (lists.perm (lists_ofPairs pairs)))
  exact toLex.injective (le_antisymm below above)

end Attributes

/-- An opening tag with attributes in the order in which they are listed: a space and the name, and
behind the name the value in quotes unless it is empty. -/
def openingTag (tag : String) (entries : List (String × String)) : String :=
  "<" ++ tag ++ String.join (entries.map fun (name, value) =>
    " " ++ if value = "" then name else name ++ "=\"" ++ value ++ "\"") ++ ">"

/-- An element is shown by its opening tag. -/
theorem Content.line_element (tag : String) (attributes : Attributes) :
    (element tag attributes).line = openingTag tag attributes.entries := rfl

/-- An element made of a tag and pairs is shown by an opening tag with every name in the pairs, once
and with its last value, in strictly increasing order of code points. In whatever order the names
are listed, sorting them gives this tag, and other pairs with the same last values give it, too. -/
theorem Tree.line_ofPairs {tree : Tree} {id : NodeId} {tag : String}
    {pairs : List (String × String)}
    (made : tree.content id = some (.element tag (.ofPairs pairs))) :
    (∃ entries, Attributes.Lists entries pairs ∧
      (entries.Pairwise fun former latter => codePoints former.1 < codePoints latter.1) ∧
      tree.line id = openingTag tag entries) ∧
    (∀ listing, Attributes.Lists listing pairs →
      tree.line id = openingTag tag (Attributes.sort listing)) ∧
    ∀ (other : Tree) place others, other.content place = some (.element tag (.ofPairs others)) →
      (∀ name value,
        Attributes.LastValue others name value ↔ Attributes.LastValue pairs name value) →
      other.line place = tree.line id := by
  have shown : tree.line id = openingTag tag (Attributes.ofPairs pairs).entries := by
    rw [line, made, Option.map_some, Option.getD_some, Content.line_element]
  refine ⟨⟨_, Attributes.lists_ofPairs pairs, ?_, shown⟩, fun listing lists => ?_, ?_⟩
  · exact (Attributes.ofPairs pairs).sorted.imp codePoints_lt
  · rw [shown, Attributes.sort_eq_entries lists]
  · intro other place others madeToo same
    rw [line, line, made, madeToo, Attributes.ofPairs_eq_of_lastValue same]

/-- Attributes in no order, one of them given twice and one without a value. -/
def givenTwice : List (String × String) :=
  [("title", "old"), ("é", "2"), ("hidden", ""), ("Z", "1"), ("title", "new")]

/-- A paragraph with these attributes is shown with the title given last, and with the capital
letter first and the letter outside ASCII last. -/
theorem Tree.line_ofPairs_givenTwice :
    let tree := Tree.empty.add 0 (.element "p" (.ofPairs givenTwice))
    tree.content 1 = some (.element "p" (.ofPairs givenTwice)) ∧
    tree.line 1 = "<p Z=\"1\" hidden title=\"new\" é=\"2\">" ∧
    (∃ entries, Attributes.Lists entries givenTwice ∧
      (entries.Pairwise fun former latter => codePoints former.1 < codePoints latter.1) ∧
      tree.line 1 = openingTag "p" entries) ∧
    (∀ listing, Attributes.Lists listing givenTwice →
      tree.line 1 = openingTag "p" (Attributes.sort listing)) ∧
    ∀ (other : Tree) place others, other.content place = some (.element "p" (.ofPairs others)) →
      (∀ name value,
        Attributes.LastValue others name value ↔ Attributes.LastValue givenTwice name value) →
      other.line place = tree.line 1 := by
  intro tree
  have made : tree.content 1 = some (.element "p" (.ofPairs givenTwice)) := by
    rw [content_add]
    rfl
  exact ⟨made, by decide, line_ofPairs made⟩

end TreeQuery
