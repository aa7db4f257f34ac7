import DeclarativeSql.Proofs.Query.Runs

/-!
# Created nodes

Once its checks have passed, a node is always made, and the sources that its expressions use hang
below it afterwards. Everything else stays where it was.
-/
namespace DeclarativeSql

/-- Only nodes that take sources below them, any number of them, have expressions with
subqueries. -/
theorem NodeKind.accepts_of_subqueries {kind : NodeKind} {id : NodeId}
    (hcheck : Arena.checkTarget kind.subqueries kind = .ok ()) (hid : id ∈ kind.subqueries) :
    kind.sort.accepts .source = true ∧ kind.sort.slot? .source = none := by
  cases kind with
  | insert target =>
    rw [Arena.checkTarget] at hcheck
    split at hcheck
    next hempty =>
      rw [List.isEmpty_iff.mp hempty] at hid
      cases hid
    next => cases hcheck
  | owner => cases hid
  | source t => cases hid
  | _ => exact ⟨rfl, rfl⟩

namespace Arena

variable {a : Arena}

theorem isSource_of_checkSubqueries {kind : NodeKind} {ids : List NodeId}
    (h : a.checkSubqueries kind ids = .ok ()) {id : NodeId} (hid : id ∈ ids) :
    ∃ t, a.kind? id = some (.source t) := by
  induction ids with
  | nil => cases hid
  | cons first rest ih =>
    unfold checkSubqueries at h
    split at h
    next => cases h
    next n hn =>
      split at h
      next hsort =>
        rcases List.mem_cons.mp hid with rfl | hid
        · have hkind := kind?_of_node? (node_eq_ok_iff.mp hn)
          cases hk : n.kind with
          | source t => exact ⟨t, hk ▸ hkind⟩
          | _ => simp [hk, NodeKind.sort] at hsort
        · exact ih h hid
      next => cases h

theorem checkCreate_eq_ok_iff {kind : NodeKind} :
    a.checkCreate kind = .ok () ↔ checkTarget kind.subqueries kind = .ok () ∧
      a.checkSubqueries kind kind.subqueries = .ok () ∧ checkColumns kind = .ok () := by
  unfold checkCreate
  cases checkTarget kind.subqueries kind with
  | error e => simp
  | ok => cases a.checkSubqueries kind kind.subqueries <;> simp

/-- Sources find their place below a root that accepts them, because nothing is above it. -/
theorem IsForest.attach_source (h : a.IsForest) {root id : NodeId} {kind : NodeKind} {t : Table}
    (hroot : a.kind? root = some kind) (hparent : a.parent? root = none)
    (haccepts : kind.sort.accepts .source = true) (hslot : kind.sort.slot? .source = none)
    (hid : a.kind? id = some (.source t)) (hne : id ≠ root) :
    a.attach root id = (.ok (), (a.cut id).graft root id) := by
  obtain ⟨p, hp, rfl⟩ := Option.map_eq_some_iff.mp hroot
  obtain ⟨c, hc, hck⟩ := Option.map_eq_some_iff.mp hid
  have hcount : checkCount p.kind c.kind = .ok () := by
    rw [hck]
    cases p.kind <;> rfl
  have hplace : a.checkPlace root c.kind (some id) = .ok () := by
    refine checkPlace_eq_ok_iff.mpr ⟨p, hp, ?_, hcount, ?_⟩
    · rw [hck]
      exact haccepts
    · rw [hck, checkSlot, NodeKind.sort, hslot]
  have hcycle : a.checkCycle root id = .ok () := by
    rw [checkCycle, hp, hc]
    simp [h.lineage_eq root, hparent, hne]
  have hcheck : a.checkAttach root id = .ok () := checkAttach_eq_ok_iff.mpr ⟨c, hc, hplace, hcycle⟩
  rw [attach, hcheck]

/-- What moving sources below a root makes of the trees. -/
structure Gathered (a b : Arena) (root : NodeId) (ids : List NodeId) : Prop where
  isForest : b.IsForest
  tables : b.tables = a.tables
  size : b.size = a.size
  kinds : ∀ id, b.kind? id = a.kind? id
  parents : ∀ id, b.parent? id = if id ∈ ids then some root else a.parent? id
  children : ∀ {parent id}, parent ≠ root → id ∈ b.childrenOf parent → id ∈ a.childrenOf parent

theorem IsForest.gathered_attachAll (h : a.IsForest) {root : NodeId} {kind : NodeKind}
    {ids : List NodeId} (hroot : a.kind? root = some kind) (hparent : a.parent? root = none)
    (haccepts : ids ≠ [] → kind.sort.accepts .source = true ∧ kind.sort.slot? .source = none)
    (hids : ∀ id ∈ ids, id ≠ root ∧ ∃ t, a.kind? id = some (.source t)) :
    ∃ b, a.attachAll root ids = (.ok (), b) ∧ Gathered a b root ids := by
  induction ids generalizing a with
  | nil => exact ⟨a, rfl, h, rfl, rfl, fun _ => rfl, by simp, fun _ hmem => hmem⟩
  | cons first rest ih =>
    obtain ⟨hac, hsl⟩ := haccepts (List.cons_ne_nil _ _)
    obtain ⟨hne, t, ht⟩ := hids first (List.mem_cons_self ..)
    have hattach := h.attach_source hroot hparent hac hsl ht hne
    have hlt : first < a.size := lt_size_of_kind? ht
    have hcheck : a.checkAttach root first = .ok () := by
      unfold attach at hattach
      split at hattach
      next => simp at hattach
      next hok => exact hok
    have hmoved : ((a.cut first).graft root first).IsForest := h.step (.attach hcheck)
    have hkinds : ∀ id, ((a.cut first).graft root first).kind? id = a.kind? id :=
      kind?_move root first
    have hparents : ∀ id, ((a.cut first).graft root first).parent? id =
        if id = first then some root else a.parent? id := parent?_move hlt root
    have hchildren : ∀ {parent id}, parent ≠ root →
        id ∈ ((a.cut first).graft root first).childrenOf parent → id ∈ a.childrenOf parent := by
      intro parent id hp hmem
      rw [hmoved.mem_childrenOf_iff, HangsBelow, hparents] at hmem
      split at hmem
      next => exact absurd (Option.some.inj hmem).symm hp
      next => exact h.mem_childrenOf_iff.mpr hmem
    -- the others are attached to the trees in which the first one has moved
    obtain ⟨b, hb, hgathered⟩ := ih hmoved ((hkinds root).trans hroot)
      (by rw [hparents, if_neg (Ne.symm hne), hparent]) (fun _ => ⟨hac, hsl⟩)
      (fun id hid => by
        rw [hkinds]
        exact hids id (List.mem_cons_of_mem _ hid))
    have hall : a.attachAll root (first :: rest) = (.ok (), b) := by
      rw [attachAll, hattach]
      exact hb
    exact ⟨b, hall, {
      isForest := hgathered.isForest
      tables := by rw [hgathered.tables, tables_graft, tables_cut]
      size := by rw [hgathered.size, size_graft, size_cut]
      kinds := by
        intro id
        rw [hgathered.kinds, hkinds]
      parents := by
        intro id
        rw [hgathered.parents, hparents]
        by_cases hrest : id ∈ rest
        · simp [hrest]
        · by_cases hfirst : id = first <;> simp [hrest, hfirst]
      children := fun hp hmem => hchildren hp (hgathered.children hp hmem) }⟩

/-- The node is the last one, and nothing but its subqueries hangs below it. -/
structure Created (a b : Arena) (kind : NodeKind) : Prop where
  isForest : b.IsForest
  tables : b.tables = (a.registerAll kind.table?).tables
  size : b.size = a.size + 1
  kinds : ∀ id, b.kind? id = if id = a.size then some kind else a.kind? id
  parents : ∀ id, b.parent? id = if id ∈ kind.subqueries then some a.size else a.parent? id
  children : ∀ {parent id}, parent < a.size → id ∈ b.childrenOf parent → id ∈ a.childrenOf parent
  sources : ∀ id ∈ kind.subqueries, ∃ t, a.kind? id = some (.source t)

theorem IsForest.created_of_checkCreate (h : a.IsForest) {kind : NodeKind}
    (hcheck : a.checkCreate kind = .ok ()) :
    ∃ b, a.create kind = (.ok a.size, b) ∧ Created a b kind := by
  obtain ⟨htarget, hsubqueries, -⟩ := checkCreate_eq_ok_iff.mp hcheck
  have hsources : ∀ id ∈ kind.subqueries, ∃ t, a.kind? id = some (.source t) := fun _ hid =>
    isSource_of_checkSubqueries hsubqueries hid
  have hsize : (a.registerAll kind.table?).size = a.size := size_registerAll _
  have hforest : ((a.registerAll kind.table?).push kind).IsForest := h.step (.create hcheck)
  have hkinds : ∀ id, ((a.registerAll kind.table?).push kind).kind? id =
      if id = a.size then some kind else a.kind? id := by
    intro id
    rw [kind?_push, hsize, kind?_registerAll]
  have hparents : ∀ id, ((a.registerAll kind.table?).push kind).parent? id = a.parent? id := by
    intro id
    rw [parent?_push, parent?_registerAll]
  have hroot : a.parent? a.size = none := parent?_size a
  have haccepts : kind.subqueries ≠ [] →
      kind.sort.accepts .source = true ∧ kind.sort.slot? .source = none := by
    intro hne
    obtain ⟨id, hid⟩ := List.exists_mem_of_ne_nil _ hne
    exact NodeKind.accepts_of_subqueries htarget hid
  have hnew : ∀ id ∈ kind.subqueries, id ≠ a.size ∧
      ∃ t, ((a.registerAll kind.table?).push kind).kind? id = some (.source t) := by
    intro id hid
    obtain ⟨t, ht⟩ := hsources id hid
    have hne : id ≠ a.size := Nat.ne_of_lt (lt_size_of_kind? ht)
    exact ⟨hne, t, by rw [hkinds, if_neg hne, ht]⟩
  obtain ⟨b, hb, hgathered⟩ := hforest.gathered_attachAll
    (by rw [hkinds, if_pos rfl] : _ = some kind) (by rw [hparents, hroot]) haccepts hnew
  have hcreate : a.create kind = (.ok a.size, b) := by simp only [create, hcheck, hb]
  exact ⟨b, hcreate, {
    isForest := hgathered.isForest
    tables := hgathered.tables
    size := by rw [hgathered.size, size_push, hsize]
    kinds := by
      intro id
      rw [hgathered.kinds, hkinds]
    parents := by
      intro id
      rw [hgathered.parents, hparents]
    children := by
      intro parent id hp hmem
      have hold := hgathered.children (Nat.ne_of_lt hp) hmem
      rwa [childrenOf_push, childrenOf_registerAll] at hold
    sources := hsources }⟩

/-- The way up from an old node leads to the new one exactly if it passed a source that has moved
below it. -/
theorem Created.reaches_iff {b : Arena} {kind : NodeKind} (h : Created a b kind)
    (hforest : a.IsForest) {id : NodeId} (hid : id < a.size) :
    Relation.ReflTransGen b.HangsBelow id a.size ↔
      ∃ s ∈ kind.subqueries, Relation.ReflTransGen a.HangsBelow id s := by
  constructor
  · intro hreach
    induction hreach using Relation.ReflTransGen.head_induction_on with
    | refl => exact absurd hid (Nat.lt_irrefl _)
    | @head c p hp _ ih =>
      by_cases hc : c ∈ kind.subqueries
      · exact ⟨c, hc, .refl⟩
      · rw [HangsBelow, h.parents, if_neg hc] at hp
        obtain ⟨s, hs, hreach⟩ := ih (hforest.lt_size_of_parent hp)
        exact ⟨s, hs, .head hp hreach⟩
  · rintro ⟨s, hs, hreach⟩
    have hnew : ∀ {c}, c ∈ kind.subqueries → b.HangsBelow c a.size := by
      intro c hc
      rw [HangsBelow, h.parents, if_pos hc]
    induction hreach using Relation.ReflTransGen.head_induction_on with
    | refl => exact .single (hnew hs)
    | @head c p hp _ ih =>
      by_cases hc : c ∈ kind.subqueries
      · exact .single (hnew hc)
      · have hstep : b.HangsBelow c p := by rwa [HangsBelow, h.parents, if_neg hc]
        exact .head hstep (ih (hforest.lt_size_of_parent hp))

end Arena

end DeclarativeSql
