import DeclarativeSql.Query.Arena

/-!
# Links between nodes

Kind, parent and children of a node, and what a change of the trees makes of them.
-/
namespace DeclarativeSql

namespace Arena

def kind? (a : Arena) (id : NodeId) : Option NodeKind := (a.node? id).map (·.kind)

/-- The children of a node. One that does not exist has none. -/
def childrenOf (a : Arena) (id : NodeId) : List NodeId := (a.node? id).elim [] (·.children)

section Nodes

variable {a : Arena} {id : NodeId}

theorem parent?_eq_some_iff {p : NodeId} :
    a.parent? id = some p ↔ ∃ n, a.node? id = some n ∧ n.parent = some p := by
  simp [parent?, Option.bind_eq_some_iff]

theorem isSome_kind?_iff : (a.kind? id).isSome ↔ id < a.size := by
  simp [kind?, node?, size]

theorem isSome_node?_iff : (a.node? id).isSome ↔ id < a.size := by
  simp [node?, size]

theorem lt_size_of_kind? {k : NodeKind} (h : a.kind? id = some k) : id < a.size :=
  isSome_kind?_iff.mp (by simp [h])

theorem lt_size_of_parent? {p : NodeId} (h : a.parent? id = some p) : id < a.size := by
  obtain ⟨n, hn, -⟩ := parent?_eq_some_iff.mp h
  exact isSome_node?_iff.mp (by simp [hn])

theorem lt_size_of_mem_childrenOf {c : NodeId} (h : c ∈ a.childrenOf id) : id < a.size := by
  unfold childrenOf at h
  cases hn : a.node? id with
  | none => simp [hn] at h
  | some n => exact isSome_node?_iff.mp (by simp [hn])

theorem parent?_size (a : Arena) : a.parent? a.size = none := by
  simp [parent?, node?, size]

theorem node?_push (k : NodeKind) (j : NodeId) :
    (a.push k).node? j = if j = a.size then some ⟨k, none, []⟩ else a.node? j := by
  unfold push node? size
  rw [List.getElem?_append]
  grind

end Nodes

section Register

variable {a : Arena}

theorem nodes_register (t : Table) : (a.register t).nodes = a.nodes := by
  unfold register
  split <;> rfl

theorem nodes_registerAll (t : Option Table) : (a.registerAll t).nodes = a.nodes := by
  cases t with
  | none => rfl
  | some t => exact nodes_register t

theorem size_registerAll (t : Option Table) : (a.registerAll t).size = a.size :=
  congrArg List.length (nodes_registerAll t)

theorem kind?_registerAll (t : Option Table) (j : NodeId) :
    (a.registerAll t).kind? j = a.kind? j := by
  rw [kind?, node?, nodes_registerAll]
  rfl

theorem parent?_registerAll (t : Option Table) (j : NodeId) :
    (a.registerAll t).parent? j = a.parent? j := by
  rw [parent?, node?, nodes_registerAll]
  rfl

theorem childrenOf_registerAll (t : Option Table) (j : NodeId) :
    (a.registerAll t).childrenOf j = a.childrenOf j := by
  rw [childrenOf, node?, nodes_registerAll]
  rfl

end Register

section Push

variable {a : Arena} (k : NodeKind)

theorem size_push : (a.push k).size = a.size + 1 := by
  simp [size, push]

theorem kind?_push (j : NodeId) :
    (a.push k).kind? j = if j = a.size then some k else a.kind? j := by
  unfold kind?
  rw [node?_push]
  split <;> rfl

theorem parent?_push (j : NodeId) : (a.push k).parent? j = a.parent? j := by
  unfold parent?
  rw [node?_push]
  split
  next h =>
    subst h
    simp [node?, size]
  next => rfl

theorem childrenOf_push (j : NodeId) : (a.push k).childrenOf j = a.childrenOf j := by
  unfold childrenOf
  rw [node?_push]
  split
  next h =>
    subst h
    simp [node?, size]
  next => rfl

end Push

section Update

variable {a : Arena} {id : NodeId} {f : Node → Node}

theorem node?_update (f : Node → Node) (j : NodeId) :
    (a.update id f).node? j = (a.node? j).map fun n => if id = j then f n else n := by
  simp [update, node?, List.getElem?_modify]

theorem size_update : (a.update id f).size = a.size := by
  simp [size, update]

theorem kind?_update (hf : ∀ n, (f n).kind = n.kind) (j : NodeId) :
    (a.update id f).kind? j = a.kind? j := by
  unfold kind?
  rw [node?_update]
  cases a.node? j with
  | none => rfl
  | some n => by_cases hj : id = j <;> simp [hj, hf]

theorem parent?_update (hf : ∀ n, (f n).parent = n.parent) (j : NodeId) :
    (a.update id f).parent? j = a.parent? j := by
  unfold parent?
  rw [node?_update]
  cases a.node? j with
  | none => rfl
  | some n => by_cases hj : id = j <;> simp [hj, hf]

theorem childrenOf_update (hf : ∀ n, (f n).children = n.children) (j : NodeId) :
    (a.update id f).childrenOf j = a.childrenOf j := by
  unfold childrenOf
  rw [node?_update]
  cases a.node? j with
  | none => rfl
  | some n => by_cases hj : id = j <;> simp [hj, hf]

theorem parent?_update_parent (hid : id < a.size) (p : Option NodeId) (j : NodeId) :
    (a.update id fun n => { n with parent := p }).parent? j =
      if j = id then p else a.parent? j := by
  obtain ⟨n, hn⟩ := Option.isSome_iff_exists.mp (isSome_node?_iff.mpr hid)
  unfold parent?
  rw [node?_update]
  by_cases hj : j = id
  · subst hj
    simp [hn]
  · simp [hj, Ne.symm hj]

theorem childrenOf_update_children (hid : id < a.size) (g : List NodeId → List NodeId)
    (j : NodeId) :
    (a.update id fun n => { n with children := g n.children }).childrenOf j =
      if j = id then g (a.childrenOf j) else a.childrenOf j := by
  obtain ⟨n, hn⟩ := Option.isSome_iff_exists.mp (isSome_node?_iff.mpr hid)
  unfold childrenOf
  rw [node?_update]
  by_cases hj : j = id
  · subst hj
    simp [hn]
  · simp [hj, Ne.symm hj]

end Update

section Move

variable {a : Arena}

theorem cut_of_parent?_eq_none {id : NodeId} (h : a.parent? id = none) : a.cut id = a := by
  simp [cut, h]

theorem size_cut (id : NodeId) : (a.cut id).size = a.size := by
  unfold cut
  split
  next => rfl
  next => rw [size_update, size_update]

theorem tables_cut (id : NodeId) : (a.cut id).tables = a.tables := by
  unfold cut
  split <;> rfl

theorem size_graft (parent child : NodeId) : (a.graft parent child).size = a.size := by
  rw [graft, size_update, size_update]

theorem tables_graft (parent child : NodeId) : (a.graft parent child).tables = a.tables := rfl

theorem kind?_cut (id j : NodeId) : (a.cut id).kind? j = a.kind? j := by
  unfold cut
  split
  next => rfl
  next =>
    rw [kind?_update, kind?_update]
    · intro n
      rfl
    · intro n
      rfl

theorem parent?_cut (id j : NodeId) :
    (a.cut id).parent? j = if j = id then none else a.parent? j := by
  unfold cut
  split
  next h =>
    split
    next hj => rw [hj, h]
    next => rfl
  next p h =>
    have hid : id < a.size := lt_size_of_parent? h
    rw [parent?_update_parent (by rwa [size_update]), parent?_update]
    intro n
    rfl

theorem childrenOf_cut {id p : NodeId} (h : a.parent? id = some p) (hp : p < a.size)
    (j : NodeId) : (a.cut id).childrenOf j =
      if j = p then (a.childrenOf j).filter (· ≠ id) else a.childrenOf j := by
  simp only [cut, h]
  rw [childrenOf_update, childrenOf_update_children hp]
  intro n
  rfl

theorem kind?_graft (parent child j : NodeId) : (a.graft parent child).kind? j = a.kind? j := by
  unfold graft
  rw [kind?_update, kind?_update]
  · intro n
    rfl
  · intro n
    rfl

theorem parent?_graft {child : NodeId} (h : child < a.size) (parent j : NodeId) :
    (a.graft parent child).parent? j = if j = child then some parent else a.parent? j := by
  unfold graft
  rw [parent?_update, parent?_update_parent h]
  intro n
  rfl

theorem childrenOf_graft {parent : NodeId} (h : parent < a.size) (child j : NodeId) :
    (a.graft parent child).childrenOf j =
      if j = parent then a.childrenOf j ++ [child] else a.childrenOf j := by
  unfold graft
  rw [childrenOf_update_children (by rwa [size_update]) (· ++ [child]), childrenOf_update]
  intro n
  rfl

theorem kind?_move (parent child j : NodeId) :
    ((a.cut child).graft parent child).kind? j = a.kind? j := by
  rw [kind?_graft, kind?_cut]

theorem parent?_move {child : NodeId} (h : child < a.size) (parent j : NodeId) :
    ((a.cut child).graft parent child).parent? j =
      if j = child then some parent else a.parent? j := by
  rw [parent?_graft (by rwa [size_cut]), parent?_cut]
  split <;> rfl

end Move

/-- The way up depends on the parents only. -/
theorem ownerOf_congr {a b : Arena} (hsize : b.size = a.size)
    (hparents : ∀ id, b.parent? id = a.parent? id) (id : NodeId) : b.ownerOf id = a.ownerOf id := by
  have hlineage : ∀ n id, b.lineageUpTo n id = a.lineageUpTo n id := by
    intro n
    induction n with
    | zero => exact fun _ => rfl
    | succ n ih =>
      intro id
      simp only [lineageUpTo, hparents, ih]
  rw [ownerOf, ownerOf, lineage, lineage, hsize, hlineage]

end Arena

end DeclarativeSql
