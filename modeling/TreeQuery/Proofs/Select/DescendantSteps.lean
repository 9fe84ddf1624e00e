import TreeQuery.Proofs.Select.Meaning
import TreeQuery.Proofs.Selector.Items
/-!
# Descendant steps

A descendant step asks one thing of a node, that the nearest of its ancestors that passes the
filter has the predicates, and stays where it is (`TreeView.isUnder`). So steps of this kind that
directly follow one another ask for all of their answers at once, in whatever order and however
often each is written (`selectBelow_of_same_tokens`). And where a child step leads to the parent,
that is the ancestor a descendant step looks at: with a descendant step in place of a child step at
the left end, nothing selected is lost (`selected_sublist_of_leftmost_child`).
-/
namespace TreeQuery

namespace TreeView

variable {ν : Type}

/-- Whether the nearest ancestor of a node that passes the filter has the predicates. -/
def isUnder (view : TreeView ν) (node : ν) (compound : Compound) : Bool :=
  (view.nearestAncestor node compound.filter).any (compound.predicatesAccept view)

variable [DecidableEq ν]

/-- A descendant step stays at the nodes that it lets pass. -/
theorem follow_descendant (view : TreeView ν) (compound : Compound) (node : ν) :
    view.follow ⟨.descendant, compound⟩ node =
      if view.isUnder node compound then some node else none := by
  rw [follow, isUnder]
  cases view.nearestAncestor node compound.filter <;> rfl

/-- Where a child step leads anywhere, a descendant step lets the node pass. -/
theorem isUnder_of_follow_child {view : TreeView ν} {compound : Compound} {node parent : ν}
    (leads : view.follow ⟨.child, compound⟩ node = some parent) : view.isUnder node compound := by
  simp only [follow, Option.bind_eq_bind, Option.bind_eq_some_iff,
    Option.ite_none_right_eq_some] at leads
  obtain ⟨_, _, nearest, found, ⟨_, holds⟩, _⟩ := leads
  rw [isUnder, found]
  exact holds

/-- Steps are followed one part after the other. -/
theorem followAll_append (view : TreeView ν) (steps later : List Step) (node : ν) :
    view.followAll (steps ++ later) node =
      (view.followAll steps node).bind (view.followAll later) := by
  induction steps generalizing node with
  | nil => rfl
  | cons step others ih =>
    rw [List.cons_append, followAll, followAll, Option.bind_assoc]
    exact Option.bind_congr fun next _ => ih next

/-- Descendant steps that follow one another stay at the nodes that all of them let pass. -/
theorem followAll_descendants (view : TreeView ν) (compounds : List Compound) (node : ν) :
    view.followAll (compounds.map (Step.mk .descendant)) node =
      if compounds.all (view.isUnder node) then some node else none := by
  induction compounds with
  | nil => rfl
  | cons compound others ih =>
    rw [List.map_cons, followAll, follow_descendant, List.all_cons]
    cases view.isUnder node compound with
    | false => rfl
    | true => exact ih

end TreeView

/-- What a cursor hands out for a block of descendant steps. -/
def Segment.block (tokens : List (List Char)) : List (Except SelectorError Segment) :=
  tokens.flatMap fun token => [.ok (.combinator .descendant), .ok (.token token)]

/-- A block of tokens that can be read is used as a block of descendant steps. -/
theorem Segment.mapM_block {tokens : List (List Char)} {meaning : List Char → Compound}
    (read : ∀ token ∈ tokens, (Compound.parse token).outcome = .ok (meaning token)) :
    (Segment.block tokens).mapM Item.ofResult =
      .ok ((tokens.map fun token => ⟨.descendant, meaning token⟩).flatMap Step.items) := by
  induction tokens with
  | nil => rfl
  | cons token later ih =>
    have others := ih fun other listed => read other (List.mem_cons_of_mem _ listed)
    have first : Item.ofResult (.ok (.token token)) = .ok (.compound (meaning token)) := by
      rw [Item.ofResult_token, read token List.mem_cons_self]
      rfl
    rw [Segment.block, List.flatMap_cons, ← Segment.block, List.cons_append, List.cons_append,
      List.nil_append, List.mapM_cons, List.mapM_cons, Item.ofResult_combinator rfl, first, others]
    rfl

/-- Steps in front of a block and behind it lead on alike for blocks of the same descendant
steps. -/
theorem TreeView.followAll_block {ν : Type} [DecidableEq ν] (view : TreeView ν)
    {tokens others : List (List Char)} (same : ∀ token, token ∈ tokens ↔ token ∈ others)
    (meaning : List Char → Compound) (inner outer : List Step) (node : ν) :
    view.followAll
        (inner ++ (tokens.map (fun token => ⟨.descendant, meaning token⟩) ++ outer)) node =
      view.followAll
        (inner ++ (others.map (fun token => ⟨.descendant, meaning token⟩) ++ outer)) node := by
  have blocks : ∀ node, view.followAll (tokens.map fun token => ⟨.descendant, meaning token⟩) node =
      view.followAll (others.map fun token => ⟨.descendant, meaning token⟩) node := by
    intro node
    have every : (tokens.map meaning).all (view.isUnder node) =
        (others.map meaning).all (view.isUnder node) := by
      rw [Bool.eq_iff_iff]
      simp [same]
    have steps : ∀ listed : List (List Char),
        listed.map (fun token => ⟨.descendant, meaning token⟩) =
          (listed.map meaning).map (Step.mk .descendant) := by simp
    rw [steps, steps, followAll_descendants, followAll_descendants, every]
  simp only [followAll_append, blocks]

/-- A query stays one that accepts the same nodes when the items of a block of descendant steps in
it are exchanged for those of a block with the same tokens. -/
theorem Query.exists_of_same_tokens {tokens others : List (List Char)}
    (same : ∀ token, token ∈ tokens ↔ token ∈ others) (meaning : List Char → Compound)
    {query : Query} {before after : List Item}
    (whole : query.items = before ++
      ((tokens.map fun token => ⟨.descendant, meaning token⟩).flatMap Step.items ++ after)) :
    ∃ exchanged : Query, exchanged.items = before ++
        ((others.map fun token => ⟨.descendant, meaning token⟩).flatMap Step.items ++ after) ∧
      ∀ (ν : Type) [DecidableEq ν] (view : TreeView ν),
        query.accepts view = exchanged.accepts view := by
  cases tokens with
  | nil =>
    obtain rfl : others = [] := by simpa [List.eq_nil_iff_forall_not_mem] using same
    exact ⟨query, whole, fun ν _ view => rfl⟩
  | cons token later =>
    obtain ⟨subject, steps⟩ := query
    obtain ⟨inner, outer, rfl, rfl, rfl⟩ := Query.exists_split_block whole
    let exchanged : Query := ⟨subject,
      inner ++ (others.map (fun token => ⟨.descendant, meaning token⟩) ++ outer)⟩
    refine ⟨exchanged, by simp [Query.items, exchanged], fun ν _ view => funext fun node => ?_⟩
    have alike := view.followAll_block same meaning inner outer node
    rw [Query.accepts, Query.accepts, ← alike]
    rfl

/-- Selectors that differ only in a block of descendant steps select the same, or fail alike, when
each token of one block is one of the other and can be read: neither the order in a block matters
nor how often a token is written there. -/
theorem selectBelow_of_same_tokens {ν : Type} [DecidableEq ν] (host : Host ν) (scope : ν)
    {selector other : String} {before after : List (Except SelectorError Segment)}
    {tokens others : List (List Char)}
    (segments : (Cursor.ofSelector selector).segments = before ++ (Segment.block tokens ++ after))
    (otherSegments : (Cursor.ofSelector other).segments = before ++ (Segment.block others ++ after))
    (same : ∀ token, token ∈ tokens ↔ token ∈ others)
    (readable : ∀ token ∈ tokens, ∃ compound, (Compound.parse token).outcome = .ok compound) :
    (host.selectBelow scope selector).outcome = (host.selectBelow scope other).outcome := by
  have : Nonempty Compound := ⟨⟨{}, []⟩⟩
  choose! meaning read using readable
  have block := Segment.mapM_block read
  have otherBlock := Segment.mapM_block fun token listed => read token ((same token).mpr listed)
  rw [Host.outcome_selectBelow, Host.outcome_selectBelow]
  cases found : (Query.parse selector).outcome with
  | error error =>
    have otherFound : (Query.parse other).outcome = .error error := by
      rw [Query.outcome_parse_eq_error_iff, segments] at found
      rw [Query.outcome_parse_eq_error_iff, otherSegments]
      exact mapM_eq_error_of_exchange block otherBlock found
    rw [otherFound]
  | ok query =>
    rw [Query.outcome_parse_eq_ok_iff, segments, mapM_append_eq_ok_iff] at found
    obtain ⟨first, _, firstRead, rest, items⟩ := found
    obtain ⟨_, last, blockRead, lastRead, rfl⟩ := mapM_append_eq_ok_iff.mp rest
    cases block.symm.trans blockRead
    have otherItems := mapM_append_eq_ok_iff.mpr ⟨first, _, firstRead,
      mapM_append_eq_ok_iff.mpr ⟨_, last, otherBlock, lastRead, rfl⟩, rfl⟩
    rw [← otherSegments] at otherItems
    obtain ⟨exchanged, exchangedItems, accepted⟩ :=
      Query.exists_of_same_tokens same meaning items
    rw [← exchangedItems, ← Query.outcome_parse_eq_ok_iff] at otherItems
    rw [otherItems, Except.map, Except.map, Host.matched_eq_filter, Host.matched_eq_filter,
      accepted ν host.toTreeView]

/-- What a cursor hands out for an item just behind another one. -/
def Segment.itemBehindItem : List (Except SelectorError Segment) :=
  [.ok (.token "li".toList), .ok (.combinator .adjacent), .ok (.token "li".toList)]

/-- The second item of a list in a division, asked for with two blocks of the same ancestors. -/
theorem selectBelow_of_same_tokens_twoItems :
    (Cursor.ofSelector "* div li + li").segments =
      Segment.itemBehindItem ++ (Segment.block ["div".toList, "*".toList] ++ []) ∧
    (Cursor.ofSelector "div * div li + li").segments =
      Segment.itemBehindItem ++ (Segment.block ["div".toList, "*".toList, "div".toList] ++ []) ∧
    (∀ token, token ∈ ["div".toList, "*".toList] ↔
      token ∈ ["div".toList, "*".toList, "div".toList]) ∧
    (∀ token ∈ ["div".toList, "*".toList],
      ∃ compound, (Compound.parse token).outcome = .ok compound) ∧
    (twoItems.host.selectBelow 0 "* div li + li").outcome =
      (twoItems.host.selectBelow 0 "div * div li + li").outcome := by
  have segments : (Cursor.ofSelector "* div li + li").segments =
      Segment.itemBehindItem ++ (Segment.block ["div".toList, "*".toList] ++ []) := by
    decide +kernel
  have otherSegments : (Cursor.ofSelector "div * div li + li").segments =
      Segment.itemBehindItem ++ (Segment.block ["div".toList, "*".toList, "div".toList] ++ []) := by
    decide +kernel
  have same : ∀ token, token ∈ ["div".toList, "*".toList] ↔
      token ∈ ["div".toList, "*".toList, "div".toList] := by
    simp only [List.mem_cons, List.not_mem_nil, or_false]
    tauto
  have readable : ∀ token ∈ ["div".toList, "*".toList],
      ∃ compound, (Compound.parse token).outcome = .ok compound := by
    simp only [List.mem_cons, List.not_mem_nil, or_false, forall_eq_or_imp, forall_eq]
    exact ⟨⟨.ofTag "div", by decide +kernel⟩, ⟨⟨{}, []⟩, by decide +kernel⟩⟩
  exact ⟨segments, otherSegments, same, readable,
    selectBelow_of_same_tokens twoItems.host 0 segments otherSegments same readable⟩

/-- A query whose leftmost step is a child step is one with a descendant step in its place. -/
theorem Query.exists_of_leftmost_child {selector other : String}
    {before after : List (Except SelectorError Segment)} {query : Query}
    (segments : (Cursor.ofSelector selector).segments =
      before ++ .ok (.combinator .child) :: after)
    (otherSegments : (Cursor.ofSelector other).segments =
      before ++ .ok (.combinator .descendant) :: after)
    (leftmost : ∀ combinator, .ok (.combinator combinator) ∉ after)
    (read : (Query.parse selector).outcome = .ok query) :
    ∃ subject inner compound, query = ⟨subject, inner ++ [⟨.child, compound⟩]⟩ ∧
      (Query.parse other).outcome = .ok ⟨subject, inner ++ [⟨.descendant, compound⟩]⟩ := by
  rw [Query.outcome_parse_eq_ok_iff, segments, mapM_append_eq_ok_iff] at read
  obtain ⟨first, _, firstRead, rest, items⟩ := read
  obtain ⟨_, last, used, lastRead, rfl⟩ := mapM_cons_eq_ok_iff.mp rest
  cases used
  obtain ⟨subject, steps⟩ := query
  obtain ⟨inner, compound, outer, rfl, rfl, rfl⟩ := Query.exists_split items
  obtain rfl : outer = [] := by
    cases outer with
    | nil => rfl
    | cons step later =>
      have inside : Item.relation step.relation ∈
          .compound compound :: (step :: later).flatMap Step.items := by simp [Step.items]
      obtain ⟨result, listed, used⟩ := exists_mem_of_mapM_eq_ok lastRead inside
      obtain ⟨combinator, rfl⟩ := Item.exists_of_ofResult_eq_relation used
      exact absurd listed (leftmost combinator)
  refine ⟨subject, inner, compound, rfl, ?_⟩
  rw [Query.outcome_parse_eq_ok_iff, otherSegments]
  have used : Item.ofResult (.ok (.combinator .descendant)) = .ok (.relation .descendant) := rfl
  have behind := mapM_cons_eq_ok_iff.mpr ⟨_, _, used, lastRead, rfl⟩
  refine mapM_append_eq_ok_iff.mpr ⟨_, _, firstRead, behind, ?_⟩
  simp [Query.items, Step.items]

/-- A node accepted with a child step at the left end is accepted with a descendant step there. -/
theorem Query.accepts_of_leftmost_child {ν : Type} [DecidableEq ν] (view : TreeView ν) (node : ν)
    {subject compound : Compound} {inner : List Step}
    (accepted : Query.accepts ⟨subject, inner ++ [⟨.child, compound⟩]⟩ view node) :
    Query.accepts ⟨subject, inner ++ [⟨.descendant, compound⟩]⟩ view node := by
  simp only [Query.accepts, Bool.and_eq_true, TreeView.followAll_append] at accepted ⊢
  obtain ⟨subjectHolds, leads⟩ := accepted
  refine ⟨subjectHolds, ?_⟩
  cases reached : view.followAll inner node with
  | none => simp [reached] at leads
  | some place =>
    obtain ⟨parent, stepped, _⟩ : ∃ parent, view.follow ⟨.child, compound⟩ place = some parent ∧
        view.followAll [] parent ≠ none := by
      simpa [reached, TreeView.followAll, Option.isSome_iff_exists] using leads
    have under := TreeView.isUnder_of_follow_child stepped
    simp [TreeView.followAll, TreeView.follow_descendant, under]

/-- What a selector with a child step at its left end selects is among what it selects with a
descendant step there, in the same order. -/
theorem selected_sublist_of_leftmost_child {ν : Type} [DecidableEq ν] (host : Host ν) (scope : ν)
    {selector other : String} {before after : List (Except SelectorError Segment)}
    (segments : (Cursor.ofSelector selector).segments =
      before ++ .ok (.combinator .child) :: after)
    (otherSegments : (Cursor.ofSelector other).segments =
      before ++ .ok (.combinator .descendant) :: after)
    (leftmost : ∀ combinator, .ok (.combinator combinator) ∉ after) {selected : List ν}
    (succeeds : (host.selectBelow scope selector).outcome = .ok selected) :
    ∃ more, (host.selectBelow scope other).outcome = .ok more ∧ selected.Sublist more := by
  rw [Host.outcome_selectBelow] at succeeds
  cases found : (Query.parse selector).outcome with
  | error error =>
    rw [found] at succeeds
    cases succeeds
  | ok query =>
    rw [found] at succeeds
    cases succeeds
    obtain ⟨subject, inner, compound, rfl, otherFound⟩ :=
      Query.exists_of_leftmost_child segments otherSegments leftmost found
    refine ⟨_, by rw [Host.outcome_selectBelow, otherFound]; rfl, ?_⟩
    rw [Host.matched_eq_filter, Host.matched_eq_filter]
    exact List.monotone_filter_right _ fun node =>
      Query.accepts_of_leftmost_child host.toTreeView node

/-- The second item of a list: it has an item just before it whose parent is the list, and so an
item just before it that is in the list. -/
theorem selected_sublist_of_leftmost_child_twoItems :
    (Cursor.ofSelector "ul > li + li").segments =
      Segment.itemBehindItem ++ .ok (.combinator .child) :: [.ok (.token "ul".toList)] ∧
    (Cursor.ofSelector "ul li + li").segments =
      Segment.itemBehindItem ++ .ok (.combinator .descendant) :: [.ok (.token "ul".toList)] ∧
    (∀ combinator, .ok (.combinator combinator) ∉
      [(.ok (.token "ul".toList) : Except SelectorError Segment)]) ∧
    (twoItems.host.selectBelow 0 "ul > li + li").outcome = .ok [4] ∧
    ∃ more, (twoItems.host.selectBelow 0 "ul li + li").outcome = .ok more ∧ [4].Sublist more := by
  have segments : (Cursor.ofSelector "ul > li + li").segments =
      Segment.itemBehindItem ++ .ok (.combinator .child) :: [.ok (.token "ul".toList)] := by
    decide +kernel
  have otherSegments : (Cursor.ofSelector "ul li + li").segments =
      Segment.itemBehindItem ++ .ok (.combinator .descendant) :: [.ok (.token "ul".toList)] := by
    decide +kernel
  have leftmost : ∀ combinator, .ok (.combinator combinator) ∉
      [(.ok (.token "ul".toList) : Except SelectorError Segment)] := by simp
  have succeeds : (twoItems.host.selectBelow 0 "ul > li + li").outcome = .ok [4] := by
    decide +kernel
  exact ⟨segments, otherSegments, leftmost, succeeds,
    selected_sublist_of_leftmost_child twoItems.host 0 segments otherSegments leftmost succeeds⟩

end TreeQuery
