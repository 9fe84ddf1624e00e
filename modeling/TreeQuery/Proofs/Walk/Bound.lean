import TreeQuery.Proofs.Walk.Circle
/-!
# Bounds that no walk reaches

A walk that ends within its bound meets the same nodes under every larger bound
(`chain_eq_of_within`), and what a chain lists is then everything that its link leads to
(`mem_chain_iff`), in the order in which it is met (`chain_eq_of_meets`).
-/
namespace TreeQuery.Walk

variable {ν : Type}

/-- A way that stays within a bound stays within a larger one. -/
theorem Within.mono {link : ν → ν → Prop} {bound larger : Nat} {node : ν}
    (within : Within link bound node) (fits : bound ≤ larger) : Within link larger node := by
  induction larger generalizing bound node with
  | zero =>
    obtain rfl : bound = 0 := by omega
    exact within
  | succ larger ih =>
    intro met leads
    cases bound with
    | zero => exact absurd leads (within met)
    | succ bound => exact ih (within met leads) (by omega)

/-- Two bounds that no way reaches give the same chain. -/
theorem chain_eq_of_within {link : ν → Option ν} {bound other : Nat} {node : ν}
    (within : Within (fun node met => link node = some met) bound node)
    (withinOther : Within (fun node met => link node = some met) other node) :
    chain link bound node = chain link other node := by
  induction bound generalizing other node with
  | zero =>
    have ends : link node = none := Option.eq_none_iff_forall_ne_some.mpr within
    cases other <;> simp [chain, ends]
  | succ bound ih =>
    cases other with
    | zero =>
      have ends : link node = none := Option.eq_none_iff_forall_ne_some.mpr withinOther
      simp [chain, ends]
    | succ other =>
      cases leads : link node with
      | none => simp [chain, leads]
      | some met => simp only [chain, leads, ih (within met leads) (withinOther met leads)]

/-- Every node that a chain lists is one that its link leads to, whatever its bound is. -/
theorem transGen_of_mem_chain {link : ν → Option ν} {bound : Nat} {node found : ν}
    (listed : found ∈ chain link bound node) :
    Relation.TransGen (fun node met => link node = some met) node found := by
  induction bound generalizing node with
  | zero => cases listed
  | succ bound ih =>
    cases leads : link node with
    | none => simp [chain, leads] at listed
    | some met =>
      simp only [chain, leads, List.mem_cons] at listed
      rcases listed with rfl | further
      · exact .single leads
      · exact .head leads (ih further)

/-- A chain that reaches its end lists every node that its link leads to. -/
theorem mem_chain_iff {link : ν → Option ν} {bound : Nat} {node : ν}
    (within : Within (fun node met => link node = some met) bound node) (found : ν) :
    found ∈ chain link bound node ↔
      Relation.TransGen (fun node met => link node = some met) node found := by
  induction bound generalizing node with
  | zero =>
    rw [Relation.TransGen.head'_iff]
    simp [chain, within _]
  | succ bound ih =>
    rw [Relation.TransGen.head'_iff]
    cases leads : link node with
    | none => simp [chain, leads]
    | some met =>
      simp [chain, leads, ih (within met leads), Relation.reflTransGen_iff_eq_or_transGen]

/-- Following a link from a node meets some nodes, one after the other, and ends behind them. -/
inductive Meets (link : ν → Option ν) : ν → List ν → Prop
  /-- The link leads nowhere. -/
  | nil {node : ν} (ends : link node = none) : Meets link node []
  /-- The link leads to a node, and meets others from there. -/
  | cons {node met : ν} {later : List ν} (leads : link node = some met)
    (on : Meets link met later) : Meets link node (met :: later)

/-- A chain that reaches its end lists what its link meets. -/
theorem chain_eq_of_meets {link : ν → Option ν} {node : ν} {nodes : List ν}
    (meets : Meets link node nodes) {bound : Nat}
    (within : Within (fun node met => link node = some met) bound node) :
    chain link bound node = nodes := by
  induction meets generalizing bound with
  | nil ends => cases bound <;> simp [chain, ends]
  | @cons node met later leads _ ih =>
    cases bound with
    | zero => exact absurd leads (within met)
    | succ bound => simp only [chain, leads, ih (within met leads)]

/-- What a chain that reaches its end lists is what its link meets. -/
theorem meets_chain {link : ν → Option ν} {bound : Nat} {node : ν}
    (within : Within (fun node met => link node = some met) bound node) :
    Meets link node (chain link bound node) := by
  induction bound generalizing node with
  | zero => exact .nil (Option.eq_none_iff_forall_ne_some.mpr within)
  | succ bound ih =>
    cases leads : link node with
    | none =>
      simp only [chain, leads]
      exact .nil leads
    | some met =>
      simp only [chain, leads]
      exact .cons leads (ih (within met leads))

/-- A node met from which the link leads nowhere is the last one met. -/
theorem Meets.getLast?_eq_some {link : ν → Option ν} {node last : ν} {nodes : List ν}
    (meets : Meets link node nodes) (listed : last ∈ nodes) (ends : link last = none) :
    nodes.getLast? = some last := by
  induction meets with
  | nil _ => cases listed
  | @cons node met later leads onward ih =>
    rcases List.mem_cons.mp listed with rfl | further
    · cases onward with
      | nil _ => rfl
      | cons again _ =>
        rw [ends] at again
        cases again
    · rw [List.getLast?_cons, ih further, Option.getD_some]

/-- A link leads on to everything that it meets. -/
theorem Meets.transGen {link : ν → Option ν} {node : ν} {nodes : List ν}
    (meets : Meets link node nodes) {met : ν} (listed : met ∈ nodes) :
    Relation.TransGen (fun node met => link node = some met) node met := by
  induction meets with
  | nil _ => cases listed
  | cons leads _ ih =>
    rcases List.mem_cons.mp listed with rfl | later
    · exact .single leads
    · exact .head leads (ih later)

end TreeQuery.Walk
