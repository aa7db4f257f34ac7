import DeclarativeSql.Proofs.Query.Forest
import Mathlib.Data.Finset.Card
import Mathlib.Data.Finset.Range

/-!
# Lineages

In a forest the way up from a node ends at a root before the bound on its length is reached, so a
lineage has all ancestors of the node.
-/
namespace DeclarativeSql

namespace Arena

variable {a : Arena}

/-- Every step up leaves one node less to meet. -/
theorem IsForest.lineageUpTo_succ (h : a.IsForest) {n : Nat} {id : NodeId} {s : Finset NodeId}
    (hs : ∀ ancestor, Relation.ReflTransGen a.HangsBelow id ancestor → ancestor ∈ s)
    (hcard : s.card ≤ n) : a.lineageUpTo (n + 1) id = a.lineageUpTo n id := by
  induction n generalizing id s with
  | zero =>
    have hempty : s = ∅ := Finset.card_eq_zero.mp (Nat.le_zero.mp hcard)
    have hid := hs id .refl
    rw [hempty] at hid
    exact absurd hid (Finset.notMem_empty id)
  | succ n ih =>
    cases hp : a.parent? id with
    | none => simp only [lineageUpTo, hp]
    | some parent =>
      have hstep : a.lineageUpTo (n + 1) parent = a.lineageUpTo n parent := by
        apply ih (s := s.erase id)
        · intro ancestor hreach
          refine Finset.mem_erase.mpr ⟨?_, hs ancestor (.head hp hreach)⟩
          rintro rfl
          exact h.acyclic _ (.head' hp hreach)
        · rw [Finset.card_erase_of_mem (hs id .refl)]
          omega
      rw [lineageUpTo, lineageUpTo, hp]
      simp only [hstep]

theorem IsForest.lt_size_of_reach (h : a.IsForest) {id ancestor : NodeId} (hid : id < a.size)
    (hreach : Relation.ReflTransGen a.HangsBelow id ancestor) : ancestor < a.size := by
  induction hreach with
  | refl => exact hid
  | tail _ hp _ => exact h.lt_size_of_parent hp

/-- The lineage goes on from parent to parent, with no bound in its way. -/
theorem IsForest.lineage_eq (h : a.IsForest) (id : NodeId) :
    a.lineage id = id :: (a.parent? id).elim [] a.lineage := by
  have hsucc : a.lineageUpTo (a.size + 1) id = a.lineage id := by
    by_cases hid : id < a.size
    · apply h.lineageUpTo_succ (s := Finset.range a.size)
      · intro ancestor hreach
        exact Finset.mem_range.mpr (h.lt_size_of_reach hid hreach)
      · rw [Finset.card_range]
    · have hnone : a.parent? id = none := by
        rw [Option.eq_none_iff_forall_ne_some]
        intro parent hp
        exact hid (lt_size_of_parent? hp)
      obtain ⟨n, hn⟩ := Nat.exists_eq_add_one.mpr (lt_size_of_kind? h.owner)
      rw [lineage, hn, lineageUpTo, lineageUpTo, hnone]
  rw [← hsucc, lineageUpTo]
  cases a.parent? id <;> rfl

theorem IsForest.mem_lineage_iff (h : a.IsForest) {id ancestor : NodeId} :
    ancestor ∈ a.lineage id ↔ Relation.ReflTransGen a.HangsBelow id ancestor := by
  induction id using h.wellFounded.induction with
  | h id ih =>
    rw [h.lineage_eq, List.mem_cons, Relation.ReflTransGen.cases_head_iff, eq_comm]
    refine or_congr_right ?_
    cases hp : a.parent? id with
    | none => simp [HangsBelow, hp]
    | some parent =>
      have hstep := ih parent hp
      simp [HangsBelow, hp, hstep]

/-- The owner is found exactly for the nodes that its children lead to. -/
theorem IsForest.ownerOf_eq_ok_iff (h : a.IsForest) {id : NodeId} :
    a.ownerOf id = .ok ownerId ↔
      Relation.ReflTransGen (fun parent child => child ∈ a.childrenOf parent) ownerId id := by
  have hchildren : (fun parent child => child ∈ a.childrenOf parent) =
      Function.swap a.HangsBelow := by
    funext parent child
    exact propext h.mem_childrenOf_iff
  rw [hchildren, Relation.reflTransGen_swap, ← h.mem_lineage_iff, ownerOf]
  split <;> simp [*]

end Arena

end DeclarativeSql
