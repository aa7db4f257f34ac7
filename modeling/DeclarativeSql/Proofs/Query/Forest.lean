import DeclarativeSql.Proofs.Query.Links
import Mathlib.Logic.Relation
import Mathlib.Order.WellFounded

/-!
# Forests of nodes

Parents and children agree, every edge is accepted, and no node is above itself. A new node, a node
that is cut off, and a root that is put below another tree leave it so.
-/
namespace DeclarativeSql

namespace Arena

/-- The first node is a child of the second. -/
def HangsBelow (a : Arena) (child parent : NodeId) : Prop := a.parent? child = some parent

structure IsForest (a : Arena) : Prop where
  /-- A node is once among the children of its parent, and not among those of any other. -/
  links : ∀ parent child,
    (a.childrenOf parent).count child = if a.parent? child = some parent then 1 else 0
  /-- From child to parent one does not go on forever. -/
  wellFounded : WellFounded fun parent child => a.HangsBelow child parent
  owner : a.kind? ownerId = some .owner
  ownerIsRoot : a.parent? ownerId = none
  accepted : ∀ {parent child kp kc}, a.HangsBelow child parent → a.kind? parent = some kp →
    a.kind? child = some kc → kp.sort.accepts kc.sort = true
  /-- Two children of one node are never in the same slot. -/
  slots : ∀ {parent kp slot c kc d kd}, a.kind? parent = some kp →
    a.HangsBelow c parent → a.kind? c = some kc → kp.sort.slot? kc.sort = some slot →
    a.HangsBelow d parent → a.kind? d = some kd → kp.sort.slot? kd.sort = some slot → c = d
  columns : ∀ {id target}, a.kind? id = some (.insert target) →
    ∀ c ∈ target.columns, target.table.owns c = true
  values : ∀ {parent child target items}, a.HangsBelow child parent →
    a.kind? parent = some (.insert target) → a.kind? child = some (.values items) →
    target.columns.length = items.length

section Links

variable {a : Arena} {parent child : NodeId}

theorem IsForest.mem_childrenOf_iff (h : a.IsForest) :
    child ∈ a.childrenOf parent ↔ a.HangsBelow child parent := by
  rw [← List.count_pos_iff, h.links, HangsBelow]
  split <;> simp [*]

theorem IsForest.nodup_childrenOf (h : a.IsForest) (id : NodeId) : (a.childrenOf id).Nodup := by
  rw [List.nodup_iff_count]
  intro c
  rw [h.links]
  split <;> decide

theorem IsForest.lt_size_of_parent (h : a.IsForest) (hc : a.HangsBelow child parent) :
    parent < a.size :=
  lt_size_of_mem_childrenOf (h.mem_childrenOf_iff.mpr hc)

theorem IsForest.acyclic (h : a.IsForest) (id : NodeId) :
    ¬ Relation.TransGen a.HangsBelow id id := by
  intro hid
  have hswap : Relation.TransGen (Function.swap a.HangsBelow) id id :=
    Relation.transGen_swap.mpr hid
  exact h.wellFounded.transGen.irrefl.irrefl id hswap

end Links

theorem empty_isForest : empty.IsForest := by
  have hparent : ∀ id, empty.parent? id = none := by
    intro id
    cases id <;> rfl
  have hchildren : ∀ id, empty.childrenOf id = [] := by
    intro id
    cases id <;> rfl
  have hkind : ∀ {id k}, empty.kind? id = some k → k = .owner := by
    intro id k hk
    cases id with
    | zero => exact (Option.some.inj hk).symm
    | succ id => cases hk
  have hnone : ∀ {child parent}, ¬ empty.HangsBelow child parent := by
    intro child parent hc
    rw [HangsBelow, hparent] at hc
    cases hc
  exact {
    links := by
      intro parent child
      rw [hchildren, hparent]
      rfl
    wellFounded := ⟨fun id => ⟨id, fun _ hc => absurd hc hnone⟩⟩
    owner := rfl
    ownerIsRoot := rfl
    accepted := fun hc => absurd hc hnone
    slots := fun _ hc => absurd hc hnone
    columns := by
      intro id target hk
      cases hkind hk
    values := fun hc => absurd hc hnone }

theorem IsForest.register {a : Arena} (h : a.IsForest) (t : Table) : (a.register t).IsForest := by
  obtain ⟨tables, nodes⟩ := a
  have hnodes := nodes_register (a := ⟨tables, nodes⟩) t
  revert hnodes
  generalize Arena.register ⟨tables, nodes⟩ t = b
  rintro rfl
  exact ⟨h.links, h.wellFounded, h.owner, h.ownerIsRoot, h.accepted, h.slots, h.columns, h.values⟩

theorem IsForest.registerAll {a : Arena} (h : a.IsForest) (t : Option Table) :
    (a.registerAll t).IsForest := by
  cases t with
  | none => exact h
  | some t => exact h.register t

section Push

variable {a : Arena} {k : NodeKind} {child parent : NodeId}

theorem hangsBelow_push_iff : (a.push k).HangsBelow child parent ↔ a.HangsBelow child parent := by
  rw [HangsBelow, parent?_push, HangsBelow]

theorem kind?_of_hangsBelow_push {kc : NodeKind} (hc : a.HangsBelow child parent)
    (hk : (a.push k).kind? child = some kc) : a.kind? child = some kc := by
  rwa [kind?_push, if_neg (Nat.ne_of_lt (lt_size_of_parent? hc))] at hk

theorem IsForest.kind?_of_push (h : a.IsForest) {kp : NodeKind} (hc : a.HangsBelow child parent)
    (hk : (a.push k).kind? parent = some kp) : a.kind? parent = some kp := by
  rwa [kind?_push, if_neg (Nat.ne_of_lt (h.lt_size_of_parent hc))] at hk

theorem IsForest.push (h : a.IsForest)
    (hk : ∀ target, k = .insert target → ∀ c ∈ target.columns, target.table.owns c = true) :
    (a.push k).IsForest where
  links := by
    intro parent child
    rw [childrenOf_push, parent?_push]
    exact h.links parent child
  wellFounded := by simpa only [hangsBelow_push_iff] using h.wellFounded
  owner := by
    rw [kind?_push, if_neg (Nat.ne_of_lt (lt_size_of_kind? h.owner))]
    exact h.owner
  ownerIsRoot := by
    rw [parent?_push]
    exact h.ownerIsRoot
  accepted := by
    intro parent child kp kc hc hkp hkc
    rw [hangsBelow_push_iff] at hc
    exact h.accepted hc (h.kind?_of_push hc hkp) (kind?_of_hangsBelow_push hc hkc)
  slots := by
    intro parent kp slot c kc d kd hkp hc hkc hslot hd hkd hslot'
    rw [hangsBelow_push_iff] at hc hd
    exact h.slots (h.kind?_of_push hc hkp) hc (kind?_of_hangsBelow_push hc hkc) hslot hd
      (kind?_of_hangsBelow_push hd hkd) hslot'
  columns := by
    intro id target hid
    rw [kind?_push] at hid
    split at hid
    · exact hk target (Option.some.inj hid)
    · exact h.columns hid
  values := by
    intro parent child target items hc hkp hkc
    rw [hangsBelow_push_iff] at hc
    exact h.values hc (h.kind?_of_push hc hkp) (kind?_of_hangsBelow_push hc hkc)

end Push

theorem hangsBelow_cut_iff {a : Arena} {id child parent : NodeId} :
    (a.cut id).HangsBelow child parent ↔ child ≠ id ∧ a.HangsBelow child parent := by
  rw [HangsBelow, parent?_cut, HangsBelow]
  split <;> simp [*]

/-- A node that is cut off is nobody's child, and the others are whose children they were. -/
theorem IsForest.links_cut {a : Arena} (h : a.IsForest) {id p : NodeId}
    (hp : a.parent? id = some p) (parent child : NodeId) :
    ((a.cut id).childrenOf parent).count child =
      if (a.cut id).parent? child = some parent then 1 else 0 := by
  rw [childrenOf_cut hp (h.lt_size_of_parent hp), parent?_cut]
  have hcount := h.links parent child
  by_cases hchild : child = id
  · subst hchild
    have hnone : ¬ (none : Option NodeId) = some parent := by simp
    rw [if_pos rfl, if_neg hnone]
    by_cases hparent : parent = p
    · rw [if_pos hparent, List.count_eq_zero]
      simp
    · have hne : ¬ some p = some parent := by simpa [eq_comm] using hparent
      rw [if_neg hparent, hcount, hp, if_neg hne]
  · rw [if_neg hchild, ← hcount]
    split
    next => exact List.count_filter (by simpa using hchild)
    next => rfl

theorem IsForest.cut {a : Arena} (h : a.IsForest) (id : NodeId) : (a.cut id).IsForest := by
  cases hp : a.parent? id with
  | none => rwa [cut_of_parent?_eq_none hp]
  | some p =>
    exact {
      links := h.links_cut hp
      wellFounded := Subrelation.wf (fun hc => (hangsBelow_cut_iff.mp hc).2) h.wellFounded
      owner := by
        rw [kind?_cut]
        exact h.owner
      ownerIsRoot := by rw [parent?_cut, h.ownerIsRoot, ite_self]
      accepted := by
        intro parent child kp kc hc hkp hkc
        rw [kind?_cut] at hkp hkc
        exact h.accepted (hangsBelow_cut_iff.mp hc).2 hkp hkc
      slots := by
        intro parent kp slot c kc d kd hkp hc hkc hslot hd hkd hslot'
        rw [kind?_cut] at hkp hkc hkd
        exact h.slots hkp (hangsBelow_cut_iff.mp hc).2 hkc hslot (hangsBelow_cut_iff.mp hd).2 hkd
          hslot'
      columns := by
        intro j target hj
        rw [kind?_cut] at hj
        exact h.columns hj
      values := by
        intro parent child target items hc hkp hkc
        rw [kind?_cut] at hkp hkc
        exact h.values (hangsBelow_cut_iff.mp hc).2 hkp hkc }

/-- What has to hold for a root to go below a node. -/
structure MayHang (a : Arena) (parent child : NodeId) (kp kc : NodeKind) : Prop where
  parentKind : a.kind? parent = some kp
  childKind : a.kind? child = some kc
  accepts : kp.sort.accepts kc.sort = true
  values : ∀ target items, kp = .insert target → kc = .values items →
    target.columns.length = items.length
  slotIsFree : ∀ slot, kp.sort.slot? kc.sort = some slot → ∀ d kd, a.HangsBelow d parent →
    a.kind? d = some kd → d ≠ child → kp.sort.slot? kd.sort ≠ some slot
  notAbove : ¬ Relation.ReflTransGen a.HangsBelow parent child

section Graft

variable {a : Arena} {parent child : NodeId} {kp kc : NodeKind}

theorem hangsBelow_graft_iff (hchild : child < a.size) {c p : NodeId} :
    (a.graft parent child).HangsBelow c p ↔
      (c = child ∧ p = parent) ∨ (c ≠ child ∧ a.HangsBelow c p) := by
  rw [HangsBelow, parent?_graft hchild, HangsBelow]
  by_cases hc : c = child
  · simp [hc, eq_comm]
  · simp [hc]

theorem MayHang.edge_cases (hm : a.MayHang parent child kp kc) (hchild : child < a.size)
    {p c : NodeId} {k l : NodeKind} (hc : (a.graft parent child).HangsBelow c p)
    (hk : a.kind? p = some k) (hl : a.kind? c = some l) : kp = k ∧ kc = l ∨ a.HangsBelow c p := by
  rcases (hangsBelow_graft_iff hchild).mp hc with ⟨rfl, rfl⟩ | ⟨-, hc⟩
  · exact .inl ⟨Option.some.inj (hm.parentKind.symm.trans hk),
      Option.some.inj (hm.childKind.symm.trans hl)⟩
  · exact .inr hc

/-- Above the new parent nothing has changed, so going up ends. -/
theorem wellFounded_graft (hchild : child < a.size)
    (h : WellFounded fun parent child => a.HangsBelow child parent)
    (hcycle : ¬ Relation.ReflTransGen a.HangsBelow parent child) :
    WellFounded fun p c => (a.graft parent child).HangsBelow c p := by
  have habove : ∀ id, ¬ Relation.ReflTransGen a.HangsBelow id child →
      Acc (fun p c => (a.graft parent child).HangsBelow c p) id := by
    intro id
    induction id using h.induction with
    | h id ih =>
      intro hid
      refine ⟨id, fun p hp => ?_⟩
      rcases (hangsBelow_graft_iff hchild).mp hp with ⟨rfl, -⟩ | ⟨-, hp⟩
      · exact absurd .refl hid
      · exact ih p hp fun hreach => hid (.head hp hreach)
  have hmoved : Acc (fun p c => (a.graft parent child).HangsBelow c p) child := by
    refine ⟨child, fun p hp => ?_⟩
    rcases (hangsBelow_graft_iff hchild).mp hp with ⟨-, rfl⟩ | ⟨hne, -⟩
    · exact habove p hcycle
    · exact absurd rfl hne
  refine ⟨fun id => ?_⟩
  induction id using h.induction with
  | h id ih =>
    by_cases hid : id = child
    · rwa [hid]
    · refine ⟨id, fun p hp => ?_⟩
      rcases (hangsBelow_graft_iff hchild).mp hp with ⟨he, -⟩ | ⟨-, hp⟩
      · exact absurd he hid
      · exact ih p hp

theorem MayHang.ne_owner (h : a.IsForest) (hm : a.MayHang parent child kp kc) :
    child ≠ ownerId := by
  rintro rfl
  have hkind := hm.childKind
  rw [h.owner, Option.some.injEq] at hkind
  have haccepts := hm.accepts
  rw [← hkind] at haccepts
  cases hs : kp.sort <;> simp [NodeKind.sort, NodeSort.accepts] at haccepts

/-- A root that is put below a node is its child and nobody else's. -/
theorem IsForest.links_graft (h : a.IsForest) (hroot : a.parent? child = none)
    (hparent : parent < a.size) (hchild : child < a.size) (p c : NodeId) :
    ((a.graft parent child).childrenOf p).count c =
      if (a.graft parent child).parent? c = some p then 1 else 0 := by
  rw [childrenOf_graft hparent, parent?_graft hchild]
  have hcount := h.links p c
  by_cases hc : c = child
  · subst hc
    rw [hroot, if_neg (by simp)] at hcount
    by_cases hp : p = parent
    · subst hp
      simp [hcount]
    · simp [hp, Ne.symm hp, hcount]
  · rw [if_neg hc, ← hcount]
    split
    next => simp [List.count_append, Ne.symm hc]
    next => rfl

/-- The slot of a root that is put below a node is taken by no other child of the node. -/
theorem MayHang.ne_slot (hm : a.MayHang parent child kp kc) {d : NodeId} {kd kd' : NodeKind}
    {slot : ClauseSlot} (hkd' : a.kind? child = some kd')
    (hslot : kp.sort.slot? kd'.sort = some slot)
    (hne : d ≠ child) (hd : a.HangsBelow d parent) (hkd : a.kind? d = some kd) :
    kp.sort.slot? kd.sort ≠ some slot := by
  rw [hm.childKind, Option.some.injEq] at hkd'
  exact hm.slotIsFree slot (hkd' ▸ hslot) d kd hd hkd hne

/-- Two children of one node are in different slots, whether the new child is one of them or not. -/
theorem IsForest.slots_graft (h : a.IsForest) (hchild : child < a.size)
    (hm : a.MayHang parent child kp kc) {p c d : NodeId} {k l m : NodeKind} {slot : ClauseSlot}
    (hk : a.kind? p = some k)
    (hc : (a.graft parent child).HangsBelow c p) (hl : a.kind? c = some l)
    (hslot : k.sort.slot? l.sort = some slot)
    (hd : (a.graft parent child).HangsBelow d p) (hkd : a.kind? d = some m)
    (hslot' : k.sort.slot? m.sort = some slot) : c = d := by
  rcases (hangsBelow_graft_iff hchild).mp hc with ⟨rfl, rfl⟩ | ⟨hne, hc'⟩
  · obtain rfl := Option.some.inj (hm.parentKind.symm.trans hk)
    rcases (hangsBelow_graft_iff hchild).mp hd with ⟨rfl, -⟩ | ⟨hne, hd⟩
    · rfl
    · exact absurd hslot' (hm.ne_slot hl hslot hne hd hkd)
  · rcases (hangsBelow_graft_iff hchild).mp hd with ⟨rfl, rfl⟩ | ⟨-, hd⟩
    · obtain rfl := Option.some.inj (hm.parentKind.symm.trans hk)
      exact absurd hslot (hm.ne_slot hkd hslot' hne hc' hl)
    · exact h.slots hk hc' hl hslot hd hkd hslot'

theorem IsForest.graft (h : a.IsForest) (hroot : a.parent? child = none)
    (hm : a.MayHang parent child kp kc) : (a.graft parent child).IsForest := by
  have hchild : child < a.size := lt_size_of_kind? hm.childKind
  have hparent : parent < a.size := lt_size_of_kind? hm.parentKind
  exact {
    links := h.links_graft hroot hparent hchild
    wellFounded := wellFounded_graft hchild h.wellFounded hm.notAbove
    owner := by
      rw [kind?_graft]
      exact h.owner
    ownerIsRoot := by
      rw [parent?_graft hchild, if_neg (Ne.symm (hm.ne_owner h))]
      exact h.ownerIsRoot
    accepted := by
      intro p c k l hc hk hl
      rw [kind?_graft] at hk hl
      rcases hm.edge_cases hchild hc hk hl with ⟨rfl, rfl⟩ | hc
      · exact hm.accepts
      · exact h.accepted hc hk hl
    slots := by
      intro p k slot c l d m hk hc hl hslot hd hkd hslot'
      rw [kind?_graft] at hk hl hkd
      exact h.slots_graft hchild hm hk hc hl hslot hd hkd hslot'
    columns := by
      intro id target hid
      rw [kind?_graft] at hid
      exact h.columns hid
    values := by
      intro p c target items hc hk hl
      rw [kind?_graft] at hk hl
      rcases hm.edge_cases hchild hc hk hl with ⟨rfl, rfl⟩ | hc
      · exact hm.values target items rfl rfl
      · exact h.values hc hk hl }

end Graft

end Arena

end DeclarativeSql
