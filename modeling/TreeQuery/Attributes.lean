/-!
# Attributes of an element

The attributes of an element give a value to each of finitely many names. They are kept as entries
in strictly increasing order of their names, by code point, so attributes with the same value for
every name are equal (`ext_get?`) and are written in the same way. Setting a name again replaces
its value (`get?_set`).
-/
namespace TreeQuery

/-- Names with values, in increasing order of the names. -/
structure Attributes where
  /-- The names, each with its value. -/
  entries : List (String × String)
  /-- The names increase strictly. -/
  sorted : entries.Pairwise fun former latter => former.1 < latter.1
  deriving DecidableEq, Repr

namespace Attributes

/-- No attributes. -/
def empty : Attributes := ⟨[], .nil⟩

/-- The value of a name. -/
def get? (attributes : Attributes) (name : String) : Option String :=
  attributes.entries.lookup name

/-- Puts an entry in its place among sorted entries, in place of one with the same name. -/
def place (name value : String) : List (String × String) → List (String × String)
  | [] => [(name, value)]
  | (other, held) :: rest =>
    if name < other then (name, value) :: (other, held) :: rest
    else if other < name then (other, held) :: place name value rest
    else (name, value) :: rest

/-- The entries after placing one are that one and some of those before. -/
theorem eq_or_mem_of_mem_place {name value : String} {entries : List (String × String)}
    {entry : String × String} (listed : entry ∈ place name value entries) :
    entry = (name, value) ∨ entry ∈ entries := by
  induction entries with
  | nil => simpa [place] using listed
  | cons head rest ih =>
    obtain ⟨other, held⟩ := head
    rw [place] at listed
    split at listed
    · simpa using listed
    · split at listed
      · rcases List.mem_cons.mp listed with same | later
        · exact .inr (by simp [same])
        · exact (ih later).imp_right (List.mem_cons_of_mem _)
      · rcases List.mem_cons.mp listed with same | later
        · exact .inl same
        · exact .inr (List.mem_cons_of_mem _ later)

/-- Placing an entry keeps the names in order. -/
theorem sorted_place (name value : String) {entries : List (String × String)}
    (sorted : entries.Pairwise fun former latter => former.1 < latter.1) :
    (place name value entries).Pairwise fun former latter => former.1 < latter.1 := by
  induction entries with
  | nil => exact List.pairwise_singleton _ _
  | cons head rest ih =>
    obtain ⟨other, held⟩ := head
    obtain ⟨first, later⟩ := List.pairwise_cons.mp sorted
    rw [place]
    split
    · rename_i before
      refine List.pairwise_cons.mpr ⟨fun entry listed => ?_, sorted⟩
      rcases List.mem_cons.mp listed with same | among
      · simpa [same] using before
      · exact String.lt_trans before (first entry among)
    · split
      · rename_i after
        refine List.pairwise_cons.mpr ⟨fun entry listed => ?_, ih later⟩
        rcases eq_or_mem_of_mem_place listed with same | among
        · simpa [same] using after
        · exact first entry among
      · rename_i notBefore notAfter
        have same : name = other :=
          String.le_antisymm (String.not_lt.mp notAfter) (String.not_lt.mp notBefore)
        subst same
        exact List.pairwise_cons.mpr ⟨first, later⟩

/-- The attributes with a value given to a name. -/
def set (attributes : Attributes) (name value : String) : Attributes :=
  ⟨place name value attributes.entries, sorted_place name value attributes.sorted⟩

/-- The attributes that pairs give, a later pair overruling an earlier one of the same name. -/
def ofPairs (pairs : List (String × String)) : Attributes :=
  pairs.foldl (fun attributes pair => attributes.set pair.1 pair.2) empty

/-- Nothing has a value without attributes. -/
@[simp] theorem get?_empty (name : String) : empty.get? name = none := rfl

/-- Looking up after placing an entry finds it under its name, and what was there under others. -/
theorem lookup_place (name value other : String) (entries : List (String × String)) :
    (place name value entries).lookup other =
      if other = name then some value else entries.lookup other := by
  induction entries with
  | nil =>
    by_cases same : other = name
    · simp [place, same]
    · simp [place, same, beq_eq_false_iff_ne.mpr same]
  | cons head rest ih =>
    obtain ⟨key, held⟩ := head
    rw [place]
    split
    · by_cases same : other = name
      · simp [same]
      · simp [same, List.lookup_cons, beq_eq_false_iff_ne.mpr same]
    · split
      · rename_i after
        by_cases here : other = key
        · have apart : other ≠ name := by
            rintro rfl
            exact String.lt_irrefl _ (here ▸ after)
          simp [here, here ▸ apart]
        · simp [List.lookup_cons, beq_eq_false_iff_ne.mpr here, ih]
      · rename_i notBefore notAfter
        have same : name = key :=
          String.le_antisymm (String.not_lt.mp notAfter) (String.not_lt.mp notBefore)
        subst same
        by_cases here : other = name
        · simp [here]
        · simp [List.lookup_cons, beq_eq_false_iff_ne.mpr here, here]

/-- A name has the value it was given, and every other name the value it had. -/
theorem get?_set (attributes : Attributes) (name value other : String) :
    (attributes.set name value).get? other =
      if other = name then some value else attributes.get? other :=
  lookup_place name value other attributes.entries

/-- A name before all others has no value. -/
theorem lookup_eq_none_of_lt {name : String} {entries : List (String × String)}
    (before : ∀ entry ∈ entries, name < entry.1) : entries.lookup name = none := by
  rw [List.lookup_eq_none_iff]
  intro entry listed
  have apart : name ≠ entry.1 := fun same =>
    String.lt_irrefl entry.1 (same ▸ before entry listed)
  simpa using apart

/-- Sorted entries are determined by what is found under every name. -/
theorem eq_of_lookup_eq {left right : List (String × String)}
    (sortedLeft : left.Pairwise fun former latter => former.1 < latter.1)
    (sortedRight : right.Pairwise fun former latter => former.1 < latter.1)
    (same : ∀ name, left.lookup name = right.lookup name) : left = right := by
  induction left generalizing right with
  | nil =>
    cases right with
    | nil => rfl
    | cons head rest =>
      have found := same head.1
      rw [List.lookup_cons_self] at found
      cases found
  | cons head rest ih =>
    cases right with
    | nil =>
      have found := same head.1
      rw [List.lookup_cons_self] at found
      cases found
    | cons other later =>
      obtain ⟨name, value⟩ := head
      obtain ⟨key, held⟩ := other
      obtain ⟨firstLeft, restLeft⟩ := List.pairwise_cons.mp sortedLeft
      obtain ⟨firstRight, restRight⟩ := List.pairwise_cons.mp sortedRight
      have notBefore : ¬ name < key := by
        intro before
        have found := same name
        rw [List.lookup_cons_self, lookup_eq_none_of_lt] at found
        · cases found
        · intro entry listed
          rcases List.mem_cons.mp listed with here | among
          · simpa [here] using before
          · exact String.lt_trans before (firstRight entry among)
      have notAfter : ¬ key < name := by
        intro after
        have found := same key
        rw [List.lookup_cons_self, lookup_eq_none_of_lt] at found
        · cases found
        · intro entry listed
          rcases List.mem_cons.mp listed with here | among
          · simpa [here] using after
          · exact String.lt_trans after (firstLeft entry among)
      have equal : name = key :=
        String.le_antisymm (String.not_lt.mp notAfter) (String.not_lt.mp notBefore)
      subst equal
      have here := same name
      rw [List.lookup_cons_self, List.lookup_cons_self, Option.some.injEq] at here
      subst here
      congr 1
      refine ih restLeft restRight fun other => ?_
      by_cases there : other = name
      · subst there
        rw [lookup_eq_none_of_lt firstLeft, lookup_eq_none_of_lt firstRight]
      · have found := same other
        rwa [List.lookup_cons, List.lookup_cons, beq_eq_false_iff_ne.mpr there] at found

/-- Attributes are determined by the value of every name. -/
theorem ext_get? {left right : Attributes} (same : ∀ name, left.get? name = right.get? name) :
    left = right := by
  obtain ⟨entries, sorted⟩ := left
  obtain ⟨others, ordered⟩ := right
  cases eq_of_lookup_eq sorted ordered same
  rfl

/-- The last pair of a name gives it its value. -/
theorem get?_ofPairs (pairs : List (String × String)) (name : String) :
    (ofPairs pairs).get? name = pairs.reverse.lookup name := by
  have onto : ∀ attributes : Attributes,
      (pairs.foldl (fun attributes pair => attributes.set pair.1 pair.2) attributes).get? name =
        (pairs.reverse.lookup name).or (attributes.get? name) := by
    induction pairs with
    | nil => exact fun _ => rfl
    | cons first later ih =>
      intro attributes
      obtain ⟨key, value⟩ := first
      rw [List.foldl_cons, ih, get?_set, List.reverse_cons, List.lookup_append, Option.or_assoc]
      by_cases same : name = key
      · simp [same]
      · simp [same, List.lookup_cons, beq_eq_false_iff_ne.mpr same]
  rw [ofPairs, onto empty, get?_empty, Option.or_none]

/-- Among pairs with distinct names, a name has the value of the pair that it is in. -/
theorem lookup_eq_some_iff_mem {pairs : List (String × String)}
    (distinct : pairs.Pairwise fun former latter => former.1 ≠ latter.1) {name value : String} :
    pairs.lookup name = some value ↔ (name, value) ∈ pairs := by
  induction pairs with
  | nil => simp
  | cons first later ih =>
    obtain ⟨key, held⟩ := first
    obtain ⟨apart, others⟩ := List.pairwise_cons.mp distinct
    by_cases here : name = key
    · have absent : (name, value) ∉ later := fun listed => apart (name, value) listed here.symm
      simp [here, here ▸ absent, eq_comm]
    · simp [List.lookup_cons, beq_eq_false_iff_ne.mpr here, here, ih others]

/-- Pairs that are the entries of attributes in any order give those attributes. -/
theorem ofPairs_of_perm {attributes : Attributes} {pairs : List (String × String)}
    (order : pairs.Perm attributes.entries) : ofPairs pairs = attributes := by
  have sorted : attributes.entries.Pairwise fun former latter => former.1 ≠ latter.1 :=
    attributes.sorted.imp fun {former latter} before (same : former.1 = latter.1) =>
      String.lt_irrefl latter.1 (same ▸ before)
  have reversed := (List.reverse_perm pairs).trans order
  have distinct := reversed.symm.pairwise sorted fun apart => apart.symm
  refine ext_get? fun name => Option.ext fun value => ?_
  rw [get?_ofPairs, get?, lookup_eq_some_iff_mem distinct, lookup_eq_some_iff_mem sorted,
    reversed.mem_iff]

end Attributes

end TreeQuery
