import TreeQuery.Proofs.Tree.Growth
import TreeQuery.Proofs.Walk.Bound
import TreeQuery.Proofs.Walk.DocumentOrder
/-!
# Forests

The parents, the child lists and the links between siblings of a tree say the same thing four
times. In a forest they agree, and no node lies above itself (`Forest`). Making a node keeps a
forest, and so does linking a node that has no parent yet to one that is not below it
(`Forest.link`); so every tree grown by edits that fit is one (`Grown.forest`). No link of a forest
leads in a circle (`Forest.noCircles`), and child lists branch without meeting again
(`Forest.branching`).
-/
namespace TreeQuery.Tree

/-- The links of a tree agree with each other, and no node lies above itself. -/
structure Forest (tree : Tree) : Prop where
  /-- The root holds the document. -/
  rootContent : tree.content root = some .document
  /-- The root has no parent. -/
  rootParent : tree.parent root = none
  /-- No child list names a node twice. -/
  distinct : ∀ id, (tree.children id).Nodup
  /-- A child list names the nodes whose parent it belongs to. -/
  listed : ∀ parent child, child ∈ tree.children parent ↔ tree.parent child = some parent
  /-- The siblings of a node are its neighbours in the child list that names it. -/
  beside : ∀ {parent child before after}, tree.children parent = before ++ child :: after →
    tree.previous child = before.getLast? ∧ tree.next child = after.head?
  /-- A node without a parent has no siblings. -/
  alone : ∀ {id}, tree.parent id = none → tree.previous id = none ∧ tree.next id = none
  /-- No node lies above itself. -/
  noCircle : Walk.NoCircle fun node met => tree.parent node = some met

namespace Forest

variable {tree : Tree}

/-- A parent exists. -/
theorem parent_lt (forest : tree.Forest) {parent child : NodeId}
    (leads : tree.parent child = some parent) : parent < tree.size := by
  have names := (forest.listed parent child).mpr leads
  exact lt_size_of_linked (.inr (.inr (.inr (List.ne_nil_of_mem names))))

/-- A node with a parent exists. -/
theorem child_lt {parent child : NodeId} (leads : tree.parent child = some parent) :
    child < tree.size :=
  lt_size_of_linked (.inl (by simp [leads]))

/-- A child exists. -/
theorem lt_of_mem_children (forest : tree.Forest) {id child : NodeId}
    (listed : child ∈ tree.children id) : child < tree.size :=
  child_lt ((forest.listed id child).mp listed)

/-- The root exists. -/
theorem root_lt (forest : tree.Forest) : root < tree.size := by
  refine get?_ne_none_iff.mp fun missing => ?_
  have held := forest.rootContent
  rw [content, missing] at held
  cases held

/-- The last child of a node exists. -/
theorem lastExists (forest : tree.Forest) (parent : NodeId) : tree.lastExists parent :=
  lastExists_of_lt fun _ listed => forest.lt_of_mem_children listed

/-- In a root alone nothing is linked. -/
theorem links_empty (id : NodeId) : Tree.empty.parent id = none ∧ Tree.empty.previous id = none ∧
    Tree.empty.next id = none ∧ Tree.empty.children id = [] := by
  cases id <;> exact ⟨rfl, rfl, rfl, rfl⟩

/-- A root alone is a forest. -/
theorem empty : Tree.empty.Forest where
  rootContent := rfl
  rootParent := rfl
  distinct id := by simp [(links_empty id).2.2.2]
  listed parent child := by simp [(links_empty parent).2.2.2, (links_empty child).1]
  beside {parent} _ _ _ split := by simp [(links_empty parent).2.2.2] at split
  alone {id} _ := ⟨(links_empty id).2.1, (links_empty id).2.2.1⟩
  noCircle := Walk.noCircle_of_lt id fun node met leads => by simp [(links_empty node).1] at leads

/-- Making a node keeps a forest. -/
theorem push (forest : tree.Forest) (content : Content) : (tree.push content).Forest where
  rootContent := by
    rw [content_push, if_neg (Nat.ne_of_lt forest.root_lt)]
    exact forest.rootContent
  rootParent := by simpa using forest.rootParent
  distinct := by simpa using forest.distinct
  listed := by simpa using forest.listed
  beside split := by simpa using forest.beside (by simpa using split)
  alone orphan := by simpa using forest.alone (by simpa using orphan)
  noCircle := by simpa using forest.noCircle

/-- A node without a parent stands in no child list. -/
theorem not_listed (forest : tree.Forest) {child : NodeId} (alone : tree.parent child = none)
    (parent : NodeId) : child ∉ tree.children parent := by
  rw [forest.listed, alone]
  exact nofun

/-- A list with one more value splits at that value or where it split before. -/
theorem split_concat {α : Type} {values before after : List α} {last value : α}
    (split : values ++ [last] = before ++ value :: after) :
    (values = before ∧ last = value ∧ after = []) ∨
      ∃ former, values = before ++ value :: former ∧ after = former ++ [last] := by
  rcases List.eq_nil_or_concat' after with rfl | ⟨former, final, rfl⟩
  · obtain ⟨whole, same⟩ := List.append_inj' split rfl
    exact .inl ⟨whole, List.head_eq_of_cons_eq same, rfl⟩
  · rw [← List.cons_append, ← List.append_assoc] at split
    obtain ⟨whole, same⟩ := List.append_inj' split rfl
    exact .inr ⟨former, whole, by rw [same]⟩

section Link

variable {parent child : NodeId}

/-- Linking a node without a parent keeps the child lists free of repetitions. -/
theorem distinct_link (forest : tree.Forest) (parentKnown : parent < tree.size)
    (alone : tree.parent child = none) (id : NodeId) :
    ((tree.link parent child).children id).Nodup := by
  rw [children_link parentKnown]
  split
  · refine List.nodup_append.mpr ⟨forest.distinct parent, List.pairwise_singleton _ _, ?_⟩
    rintro sibling listed _ (_ | ⟨_, ⟨⟩⟩) rfl
    exact forest.not_listed alone parent listed
  · exact forest.distinct id

/-- Linking a node without a parent keeps child lists and parents in agreement. -/
theorem listed_link (forest : tree.Forest) (parentKnown : parent < tree.size)
    (childKnown : child < tree.size) (alone : tree.parent child = none) (above below : NodeId) :
    below ∈ (tree.link parent child).children above ↔
      (tree.link parent child).parent below = some above := by
  rw [children_link parentKnown, parent_link childKnown]
  by_cases new : below = child
  · have unlisted := forest.not_listed alone above
    rw [if_pos new, Option.some.injEq, new]
    split
    · rename_i here
      simp [here]
    · rename_i elsewhere
      exact iff_of_false unlisted fun same => elsewhere same.symm
  · rw [if_neg new, ← forest.listed]
    split
    · rename_i here
      simp [here, new]
    · rfl

/-- After linking, the node behind one that stood in the child list is the one that was behind it,
and behind the last one the new child. -/
theorem next_link_of_listed (forest : tree.Forest) {id : NodeId} {before former : List NodeId}
    (whole : tree.children parent = before ++ id :: former) :
    (tree.link parent child).next id = (former ++ [child]).head? := by
  rw [next_link (forest.lastExists parent), whole]
  cases former with
  | nil => simp
  | cons behind rest =>
    have notLast : (before ++ id :: behind :: rest).getLast? ≠ some id := by
      intro last
      have again : id ∈ behind :: rest := List.mem_of_getLast? (by simpa using last)
      have distinct := forest.distinct parent
      rw [whole] at distinct
      exact (List.nodup_cons.mp (List.nodup_append.mp distinct).2.1).1 again
    rw [if_neg notLast, (forest.beside whole).2]
    rfl

/-- Linking a node without a parent makes the neighbours of every node its siblings. -/
theorem beside_link (forest : tree.Forest) (parentKnown : parent < tree.size)
    (childKnown : child < tree.size) (alone : tree.parent child = none) {above id : NodeId}
    {before after : List NodeId}
    (split : (tree.link parent child).children above = before ++ id :: after) :
    (tree.link parent child).previous id = before.getLast? ∧
      (tree.link parent child).next id = after.head? := by
  have notLast : ∀ {id}, id ∉ tree.children parent →
      (tree.children parent).getLast? ≠ some id :=
    fun unlisted last => unlisted (List.mem_of_getLast? last)
  rw [children_link parentKnown] at split
  by_cases here : above = parent
  · rw [if_pos here] at split
    rcases split_concat split with ⟨rfl, rfl, rfl⟩ | ⟨former, whole, rfl⟩
    · rw [previous_link childKnown, next_link (forest.lastExists parent), if_pos rfl,
        if_neg (notLast (forest.not_listed alone parent)), (forest.alone alone).1, Option.or_none]
      exact ⟨rfl, (forest.alone alone).2⟩
    · have old : id ≠ child := by
        rintro rfl
        exact forest.not_listed alone parent (by simp [whole])
      rw [previous_link childKnown, if_neg old]
      exact ⟨(forest.beside whole).1, forest.next_link_of_listed whole⟩
  · rw [if_neg here] at split
    have listed : id ∈ tree.children above := by simp [split]
    have old : id ≠ child := by
      rintro rfl
      exact forest.not_listed alone above listed
    have elsewhere : id ∉ tree.children parent := by
      rw [forest.listed, (forest.listed above id).mp listed]
      exact fun same => here (Option.some.inj same)
    rw [previous_link childKnown, next_link (forest.lastExists parent), if_neg old,
      if_neg (notLast elsewhere)]
    exact forest.beside split

/-- Linking a node without a parent leaves every other node without a parent without siblings. -/
theorem alone_link (forest : tree.Forest) (childKnown : child < tree.size) {id : NodeId}
    (alone : (tree.link parent child).parent id = none) :
    (tree.link parent child).previous id = none ∧ (tree.link parent child).next id = none := by
  rw [parent_link childKnown] at alone
  by_cases new : id = child
  · rw [if_pos new] at alone
    cases alone
  · rw [if_neg new] at alone
    have notLast : (tree.children parent).getLast? ≠ some id :=
      fun last => forest.not_listed alone parent (List.mem_of_getLast? last)
    rw [previous_link childKnown, next_link (forest.lastExists parent), if_neg new, if_neg notLast]
    exact forest.alone alone

/-- Linking a node to one that is not at or below it leads in no circle. -/
theorem noCircle_link (forest : tree.Forest) (childKnown : child < tree.size)
    (apart : ¬Relation.ReflTransGen (fun node met => tree.parent node = some met) parent child) :
    Walk.NoCircle fun node met => (tree.link parent child).parent node = some met := by
  refine Walk.noCircle_of_added forest.noCircle (fun node met leads => ?_) apart
  rw [parent_link childKnown] at leads
  by_cases new : node = child
  · rw [if_pos new, Option.some.injEq] at leads
    exact .inr ⟨new, leads.symm⟩
  · rw [if_neg new] at leads
    exact .inl leads

/-- Linking keeps a forest when the child is not the root, has no parent, and the node that it is
linked to is not at or below it. -/
theorem link (forest : tree.Forest) (parentKnown : parent < tree.size)
    (childKnown : child < tree.size) (notRoot : child ≠ root) (alone : tree.parent child = none)
    (apart : ¬Relation.ReflTransGen (fun node met => tree.parent node = some met) parent child) :
    (tree.link parent child).Forest where
  rootContent := by
    rw [content_link]
    exact forest.rootContent
  rootParent := by
    rw [parent_link childKnown, if_neg notRoot.symm]
    exact forest.rootParent
  distinct := forest.distinct_link parentKnown alone
  listed := forest.listed_link parentKnown childKnown alone
  beside := forest.beside_link parentKnown childKnown alone
  alone := forest.alone_link childKnown
  noCircle := forest.noCircle_link childKnown apart

end Link

/-- Adding a new node below an existing one keeps a forest. -/
theorem add (forest : tree.Forest) {parent : NodeId} (content : Content)
    (known : parent < tree.size) : (tree.add parent content).Forest := by
  have alone : (tree.push content).parent tree.size = none := by
    rw [parent_push, Tree.parent, get?_size]
    rfl
  refine (forest.push content).link (lt_size_push known content) (by simp)
    (Nat.ne_of_gt forest.root_lt) alone ?_
  intro way
  rcases Relation.ReflTransGen.cases_tail way with same | ⟨last, _, leads⟩
  · exact Nat.ne_of_gt known same
  · rw [parent_push] at leads
    exact Nat.lt_irrefl _ (forest.parent_lt leads)

/-- In a forest, inserting below an existing node is adding. -/
theorem apply_insert (forest : tree.Forest) {parent : NodeId}
    (known : parent < tree.size) (content : Content) :
    (Edit.insert parent content).apply tree = tree.add parent content := by
  rw [Edit.apply, insert_of_lt content known (forest.lastExists parent)]

/-- Every edit that fits keeps a forest. -/
theorem apply (forest : tree.Forest) {edit : Edit} (fits : edit.Fits tree) :
    (edit.apply tree).Forest := by
  cases fits with
  | make => exact forest.push _
  | @insert parent content known =>
    rw [forest.apply_insert known]
    exact forest.add content known
  | @append parent child parentKnown childKnown notRoot alone apart =>
    rw [Edit.apply, append_of_lt parentKnown childKnown (forest.lastExists parent)]
    exact forest.link parentKnown childKnown notRoot alone apart

/-- A node stands just before another when it does so in a child list. -/
theorem previous_eq_some_iff (forest : tree.Forest) {former latter : NodeId} :
    tree.previous latter = some former ↔
      ∃ parent before after, tree.children parent = before ++ former :: latter :: after := by
  constructor
  · intro stands
    cases leads : tree.parent latter with
    | none =>
      rw [(forest.alone leads).1] at stands
      cases stands
    | some parent =>
      obtain ⟨before, after, whole⟩ :=
        List.append_of_mem ((forest.listed parent latter).mpr leads)
      rw [(forest.beside whole).1, List.getLast?_eq_some_iff] at stands
      obtain ⟨earlier, rfl⟩ := stands
      exact ⟨parent, earlier, after, by simp [whole]⟩
  · rintro ⟨parent, before, after, whole⟩
    have split : tree.children parent = (before ++ [former]) ++ latter :: after := by simp [whole]
    rw [(forest.beside split).1, List.getLast?_concat]

/-- A node stands just after another when it does so in a child list. -/
theorem next_eq_some_iff (forest : tree.Forest) {former latter : NodeId} :
    tree.next former = some latter ↔
      ∃ parent before after, tree.children parent = before ++ former :: latter :: after := by
  constructor
  · intro stands
    cases leads : tree.parent former with
    | none =>
      rw [(forest.alone leads).2] at stands
      cases stands
    | some parent =>
      obtain ⟨before, after, whole⟩ :=
        List.append_of_mem ((forest.listed parent former).mpr leads)
      rw [(forest.beside whole).2, List.head?_eq_some_iff] at stands
      obtain ⟨later, rfl⟩ := stands
      exact ⟨parent, before, later, whole⟩
  · rintro ⟨parent, before, after, whole⟩
    rw [(forest.beside whole).2, List.head?_cons]

/-- A node stands just after another when the other stands just before it. -/
theorem next_eq_some_iff_previous (forest : tree.Forest) {former latter : NodeId} :
    tree.next former = some latter ↔ tree.previous latter = some former :=
  forest.next_eq_some_iff.trans forest.previous_eq_some_iff.symm

/-- An elder sibling exists. -/
theorem previous_lt (forest : tree.Forest) {id met : NodeId}
    (stands : tree.previous id = some met) : met < tree.size := by
  have other := forest.next_eq_some_iff_previous.mpr stands
  exact lt_size_of_linked (.inr (.inr (.inl (by simp [other]))))

/-- The place of a node in the child list that names it. -/
def place (tree : Tree) (id : NodeId) : Nat :=
  match tree.parent id with
  | none => 0
  | some parent => (tree.children parent).idxOf id

/-- A node stands at an earlier place than the one after it. -/
theorem place_lt (forest : tree.Forest) {former latter : NodeId}
    (stands : tree.previous latter = some former) : place tree former < place tree latter := by
  obtain ⟨parent, before, after, whole⟩ := forest.previous_eq_some_iff.mp stands
  have leads : tree.parent former = some parent :=
    (forest.listed parent former).mp (by simp [whole])
  have leadsToo : tree.parent latter = some parent :=
    (forest.listed parent latter).mp (by simp [whole])
  have distinct := forest.distinct parent
  rw [whole] at distinct
  obtain ⟨-, inner, new⟩ := List.nodup_append.mp distinct
  have formerNew : former ∉ before := fun again => new former again former (by simp) rfl
  have latterNew : latter ∉ before := fun again => new latter again latter (by simp) rfl
  have different : former ≠ latter := by
    rintro rfl
    exact (List.nodup_cons.mp inner).1 List.mem_cons_self
  simp only [place, leads, leadsToo, whole, List.idxOf_append_of_notMem formerNew,
    List.idxOf_append_of_notMem latterNew, List.idxOf_cons_self, List.idxOf_cons_ne _ different]
  omega

/-- No node stands before itself. -/
theorem noCircle_previous (forest : tree.Forest) :
    Walk.NoCircle fun node met => tree.previous node = some met :=
  Walk.noCircle_of_lt (place tree) fun _ _ stands => forest.place_lt stands

/-- No link of a forest leads in a circle. -/
theorem noCircles (forest : tree.Forest) : tree.view.NoCircles where
  parent := forest.noCircle
  previous := forest.noCircle_previous
  next := by
    have forwards := forest.noCircle_previous.backwards
    simp only [← forest.next_eq_some_iff_previous] at forwards
    exact forwards
  children := by
    have downwards := forest.noCircle.backwards
    simp only [← forest.listed] at downwards
    exact downwards

/-- In a forest every node stands in one child list at most, and none lies below itself. -/
theorem branching (forest : tree.Forest) : Walk.Branching tree.children where
  distinct := forest.distinct
  onlyParent listed listedOther := by
    rw [forest.listed] at listed listedOther
    exact Option.some.inj (listed.symm.trans listedOther)
  noCircle := forest.noCircles.children

end Forest

/-- A tree grown by edits that fit is a forest. -/
theorem Grown.forest {tree : Tree} (grown : tree.Grown Edit.Fits) : tree.Forest :=
  grown.invariant Forest.empty fun _ _ forest fits => forest.apply fits

/-- A tree built by inserting parts is a forest. -/
theorem Grown.forest_of_builds {tree : Tree} (grown : tree.Grown Edit.Builds) : tree.Forest :=
  (grown.mono fun _ _ => Edit.Builds.fits).forest

/-- What holds of a root alone and is kept by adding a part below an existing node holds of every
tree built by inserting parts. -/
@[elab_as_elim]
theorem Grown.builds_induction {holds : Tree → Prop} {tree : Tree}
    (grown : tree.Grown Edit.Builds) (start : holds Tree.empty)
    (step : ∀ tree parent content, tree.Grown Edit.Builds → holds tree → parent < tree.size →
      content ≠ .document → holds (tree.add parent content)) : holds tree := by
  induction grown with
  | empty => exact start
  | edit before builds ih =>
    cases builds with
    | insert known part =>
      rw [before.forest_of_builds.apply_insert known]
      exact step _ _ _ before ih known part

/-- Adding a part below an existing node is an edit that builds. -/
theorem Grown.add {tree : Tree} (grown : tree.Grown Edit.Builds) {parent : NodeId}
    (known : parent < tree.size) {content : Content} (part : content ≠ .document) :
    (tree.add parent content).Grown Edit.Builds := by
  have inserted := Grown.edit grown (Edit.Builds.insert known part)
  rwa [grown.forest_of_builds.apply_insert known] at inserted

end TreeQuery.Tree
