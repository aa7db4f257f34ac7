import DeclarativeSql.Proofs.Query.Links

/-!
# Checks

What is known of nodes that a check has let through.
-/
namespace DeclarativeSql

namespace Arena

variable {a : Arena}

theorem node_eq_ok_iff {id : NodeId} {n : Node} : a.node id = .ok n ↔ a.node? id = some n := by
  unfold node
  split <;> simp [*]

theorem childrenOf_of_node? {id : NodeId} {n : Node} (h : a.node? id = some n) :
    a.childrenOf id = n.children := by
  simp [childrenOf, h]

theorem kind?_of_node? {id : NodeId} {n : Node} (h : a.node? id = some n) :
    a.kind? id = some n.kind := by
  simp [kind?, h]

theorem checkPlace_eq_ok_iff {parent : NodeId} {child : NodeKind} {id : Option NodeId} :
    a.checkPlace parent child id = .ok () ↔ ∃ p, a.node? parent = some p ∧
      p.kind.sort.accepts child.sort = true ∧ checkCount p.kind child = .ok () ∧
      a.checkSlot p child id = .ok () := by
  unfold checkPlace
  cases hp : a.node parent with
  | error e =>
    simp only [reduceCtorEq, false_iff, not_exists, not_and]
    intro p hn
    rw [node_eq_ok_iff.mpr hn] at hp
    cases hp
  | ok p =>
    simp only [node_eq_ok_iff.mp hp, Option.some.injEq, exists_eq_left', Bool.not_eq_true']
    split
    next h => simp [h]
    next h =>
      simp only [Bool.not_eq_false] at h
      cases hc : checkCount p.kind child <;> simp [h]

theorem checkAttach_eq_ok_iff {parent child : NodeId} :
    a.checkAttach parent child = .ok () ↔ ∃ c, a.node? child = some c ∧
      a.checkPlace parent c.kind (some child) = .ok () ∧ a.checkCycle parent child = .ok () := by
  unfold checkAttach
  cases hc : a.node child with
  | error e =>
    simp only [reduceCtorEq, false_iff, not_exists, not_and]
    intro c hn
    rw [node_eq_ok_iff.mpr hn] at hc
    cases hc
  | ok c =>
    simp only [node_eq_ok_iff.mp hc, Option.some.injEq, exists_eq_left']
    cases hp : a.checkPlace parent c.kind (some child) <;> simp

theorem checkCount_eq_ok {kp kc : NodeKind} (h : checkCount kp kc = .ok ()) {target : InsertTarget}
    {items : List Expr} (hp : kp = .insert target) (hc : kc = .values items) :
    target.columns.length = items.length := by
  subst hp hc
  rw [checkCount, NodeKind.checkValueCount] at h
  split at h
  next he => exact he
  next => cases h

theorem slotIsTaken_iff {p : Node} {slot : ClauseSlot} {id : Option NodeId} :
    a.slotIsTaken p slot id = true ↔ ∃ d ∈ p.children, some d ≠ id ∧
      ∃ k, a.kind? d = some k ∧ p.kind.sort.slot? k.sort = some slot := by
  simp only [slotIsTaken, kinds, List.any_eq_true, List.mem_filterMap, List.mem_filter,
    decide_eq_true_eq]
  constructor
  · rintro ⟨k, ⟨d, ⟨hd, hne⟩, hk⟩, hslot⟩
    exact ⟨d, hd, hne, k, hk, hslot⟩
  · rintro ⟨d, hd, hne, k, hk, hslot⟩
    exact ⟨k, ⟨d, ⟨hd, hne⟩, hk⟩, hslot⟩

theorem checkSlot_eq_ok_iff {p : Node} {kc : NodeKind} {id : Option NodeId} :
    a.checkSlot p kc id = .ok () ↔ ∀ slot, p.kind.sort.slot? kc.sort = some slot →
      ¬ a.slotIsTaken p slot id = true := by
  unfold checkSlot
  split
  next slot hslot => split <;> simp_all
  next hnone => simp [hnone]

/-- A slot that was found free is taken by no child but the one that is attached. -/
theorem checkSlot_eq_ok {p : Node} {kc : NodeKind} {id : Option NodeId}
    (h : a.checkSlot p kc id = .ok ()) {slot : ClauseSlot}
    (hslot : p.kind.sort.slot? kc.sort = some slot) {d : NodeId} {kd : NodeKind}
    (hd : d ∈ p.children) (hne : some d ≠ id) (hkd : a.kind? d = some kd) :
    p.kind.sort.slot? kd.sort ≠ some slot := by
  intro htaken
  exact checkSlot_eq_ok_iff.mp h slot hslot (slotIsTaken_iff.mpr ⟨d, hd, hne, kd, hkd, htaken⟩)

theorem owns_of_checkCreate {kind : NodeKind} (h : a.checkCreate kind = .ok ())
    {target : InsertTarget} (htarget : kind = .insert target) :
    ∀ c ∈ target.columns, target.table.owns c = true := by
  have hcolumns : checkColumns kind = .ok () := by
    unfold checkCreate at h
    split at h
    next => cases h
    next =>
      split at h
      next => cases h
      next => exact h
  subst htarget
  rw [checkColumns] at hcolumns
  split at hcolumns
  next => cases hcolumns
  next hnone =>
    intro c hc
    have hown := List.find?_eq_none.mp hnone c hc
    simpa using hown

end Arena

end DeclarativeSql
