import DeclarativeSql.Proofs.Query.Checks
import DeclarativeSql.Proofs.Query.Lineage
import DeclarativeSql.Proofs.Query.Steps

/-!
# Forests in every run

Every step keeps a forest a forest, so the nodes are one whatever was done.
-/
namespace DeclarativeSql

namespace Arena

variable {a : Arena}

theorem IsForest.mayHang_of_checkAttach (h : a.IsForest) {parent child : NodeId}
    (hcheck : a.checkAttach parent child = .ok ()) :
    ∃ kp kc, (a.cut child).MayHang parent child kp kc := by
  obtain ⟨c, hc, hplace, hcycle⟩ := checkAttach_eq_ok_iff.mp hcheck
  obtain ⟨p, hp, haccepts, hcount, hslot⟩ := checkPlace_eq_ok_iff.mp hplace
  exact ⟨p.kind, c.kind, {
    parentKind := by
      rw [kind?_cut]
      exact kind?_of_node? hp
    childKind := by
      rw [kind?_cut]
      exact kind?_of_node? hc
    accepts := haccepts
    values := by
      intro target items htarget hitems
      exact checkCount_eq_ok hcount htarget hitems
    slotIsFree := by
      intro slot hs d kd hd hkd hne
      rw [kind?_cut] at hkd
      have hmem : d ∈ p.children := by
        rw [← childrenOf_of_node? hp]
        exact h.mem_childrenOf_iff.mpr (hangsBelow_cut_iff.mp hd).2
      exact checkSlot_eq_ok hslot hs hmem (by simpa using hne) hkd
    notAbove := by
      intro hreach
      have habove : Relation.ReflTransGen a.HangsBelow parent child :=
        Relation.ReflTransGen.mono (fun _ _ hstep => (hangsBelow_cut_iff.mp hstep).2) _ _ hreach
      rw [checkCycle, hp, hc] at hcycle
      simp only [h.mem_lineage_iff.mpr habove, if_true, reduceCtorEq] at hcycle }⟩

theorem IsForest.addSource (h : a.IsForest) (t : Table) : (a.addSource t).2.IsForest := by
  unfold Arena.addSource
  have hregister := h.register t
  have hsize : (a.register t).size = a.size := size_registerAll (some t)
  have hpush : ((a.register t).push (.source t)).IsForest :=
    hregister.push fun _ htarget => by cases htarget
  have howner : ownerId < a.size := lt_size_of_kind? h.owner
  have hroot : ((a.register t).push (.source t)).parent? a.size = none := by
    rw [Option.eq_none_iff_forall_ne_some]
    intro parent hp
    rw [parent?_push] at hp
    have hlt := lt_size_of_parent? hp
    rw [hsize] at hlt
    exact absurd hlt (Nat.lt_irrefl _)
  have hm : ((a.register t).push (.source t)).MayHang ownerId a.size .owner (.source t) := {
    parentKind := hpush.owner
    childKind := by rw [kind?_push, hsize, if_pos rfl]
    accepts := rfl
    values := by
      intro target items htarget
      cases htarget
    slotIsFree := by
      intro slot hslot
      cases hslot
    notAbove := by
      intro hreach
      rcases Relation.ReflTransGen.cases_head hreach with he | ⟨parent, hp, -⟩
      · exact absurd he (Nat.ne_of_lt howner)
      · rw [HangsBelow, hpush.ownerIsRoot] at hp
        cases hp }
  exact hpush.graft hroot hm

theorem IsForest.step {b : Arena} (h : a.IsForest) (hstep : Step a b) : b.IsForest := by
  cases hstep with
  | create hcheck =>
    exact (h.registerAll _).push fun _ htarget => owns_of_checkCreate hcheck htarget
  | addSource t => exact h.addSource t
  | cut id => exact h.cut id
  | @attach parent child hcheck =>
    obtain ⟨kp, kc, hm⟩ := h.mayHang_of_checkAttach hcheck
    exact (h.cut child).graft (by rw [parent?_cut, if_pos rfl]) hm

theorem IsForest.run (h : a.IsForest) (operations : List Operation) :
    (a.run operations).IsForest :=
  (a.leads_run operations).preserves (fun _ _ hstep h => h.step hstep) h

/-- Whatever is done, the nodes are a forest. Each way up ends, and it ends at the owner exactly for
the nodes that the owner's children lead to. -/
theorem run_empty_isForest (operations : List Operation) :
    (empty.run operations).IsForest ∧
      (∀ id, ¬ Relation.TransGen (empty.run operations).HangsBelow id id) ∧
      (∀ id, (empty.run operations).lineage id =
        id :: ((empty.run operations).parent? id).elim [] (empty.run operations).lineage) ∧
      (∀ id ancestor, ancestor ∈ (empty.run operations).lineage id ↔
        Relation.ReflTransGen (empty.run operations).HangsBelow id ancestor) ∧
      ∀ id, (empty.run operations).ownerOf id = .ok ownerId ↔
        Relation.ReflTransGen
          (fun parent child => child ∈ (empty.run operations).childrenOf parent) ownerId id := by
  have h : (empty.run operations).IsForest := empty_isForest.run operations
  exact ⟨h, h.acyclic, h.lineage_eq, fun _ _ => h.mem_lineage_iff, fun _ => h.ownerOf_eq_ok_iff⟩

end Arena

end DeclarativeSql
