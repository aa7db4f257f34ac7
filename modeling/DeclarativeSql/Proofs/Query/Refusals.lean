import DeclarativeSql.Proofs.Query.Creation

/-!
# Refused operations

A refused operation leaves the trees as they were, with one exception. A new node that is to go
below a source of its own expressions is refused only after these sources have moved, and they stay
below it.
-/
namespace DeclarativeSql

namespace Arena

/-- Nothing that was there before has changed. -/
structure Keeps (a b : Arena) : Prop where
  parents : ∀ id < a.size, b.parent? id = a.parent? id
  children : ∀ id < a.size, b.childrenOf id = a.childrenOf id
  tables : b.tables = a.tables

/-- A new node is to go to a place that is, or is below, a source of its own expressions. All that
is checked before it is made holds. -/
def HangsBelowItself (a : Arena) : Operation → Prop
  | .createBelow parent kind =>
    a.checkPlace parent kind none = .ok () ∧ a.checkCreate kind = .ok () ∧
      ∃ s ∈ kind.subqueries, s ∈ a.lineage parent
  | _ => False

theorem Keeps.refl (a : Arena) : a.Keeps a := ⟨fun _ _ => rfl, fun _ _ => rfl, rfl⟩

variable {a b : Arena}

theorem attach_of_error {parent child : NodeId} {e : ConstructionError}
    (h : (a.attach parent child).1 = .error e) : (a.attach parent child).2 = a := by
  unfold attach at h ⊢
  split
  next => rfl
  next hcheck => simp [hcheck] at h

theorem detach_of_error {id : NodeId} {e : ConstructionError}
    (h : (a.detach id).1 = .error e) : (a.detach id).2 = a := by
  unfold detach at h ⊢
  split
  next => rfl
  next hnode => simp [hnode] at h

/-- Only the checks can refuse a detached node. -/
theorem IsForest.create_of_error (h : a.IsForest) {kind : NodeKind} {e : ConstructionError}
    (herror : (a.create kind).1 = .error e) : (a.create kind).2 = a := by
  rcases hcheck : a.checkCreate kind with e' | ⟨⟩
  · simp only [create, hcheck]
  · obtain ⟨b, hb, -⟩ := h.created_of_checkCreate hcheck
    rw [hb] at herror
    cases herror

theorem Created.checkPlace {kind : NodeKind} {parent : NodeId} (h : Created a b kind)
    (hplace : a.checkPlace parent kind none = .ok ()) :
    b.checkPlace parent kind (some a.size) = .ok () := by
  obtain ⟨p, hp, haccepts, hcount, hslot⟩ := checkPlace_eq_ok_iff.mp hplace
  have hlt : parent < a.size := isSome_node?_iff.mp (by simp [hp])
  have hkind : b.kind? parent = some p.kind := by
    rw [h.kinds, if_neg (Nat.ne_of_lt hlt), kind?_of_node? hp]
  obtain ⟨q, hq, hqk⟩ := Option.map_eq_some_iff.mp hkind
  refine checkPlace_eq_ok_iff.mpr ⟨q, hq, hqk ▸ haccepts, hqk ▸ hcount, ?_⟩
  rw [checkSlot_eq_ok_iff] at hslot ⊢
  intro slot hs htaken
  obtain ⟨d, hd, hne, k, hk, hks⟩ := slotIsTaken_iff.mp htaken
  rw [hqk] at hs hks
  have hold : d ∈ p.children := by
    rw [← childrenOf_of_node? hp]
    exact h.children hlt (by rwa [childrenOf_of_node? hq])
  rw [h.kinds, if_neg (by simpa using hne)] at hk
  exact hslot slot hs (slotIsTaken_iff.mpr ⟨d, hold, by simp, k, hk, hks⟩)

/-- The one check that is left for the end is the one for cycles. -/
theorem Created.checkAttach_eq_ok_iff {kind : NodeKind} {parent : NodeId} (h : Created a b kind)
    (hforest : a.IsForest) (hplace : a.checkPlace parent kind none = .ok ()) :
    b.checkAttach parent a.size = .ok () ↔ ¬ ∃ s ∈ kind.subqueries, s ∈ a.lineage parent := by
  obtain ⟨p, hp, -⟩ := checkPlace_eq_ok_iff.mp hplace
  have hlt : parent < a.size := isSome_node?_iff.mp (by simp [hp])
  have hnew : b.kind? a.size = some kind := by rw [h.kinds, if_pos rfl]
  obtain ⟨c, hc, hck⟩ := Option.map_eq_some_iff.mp hnew
  have hsome : (b.node? parent).isSome := by
    rw [isSome_node?_iff, h.size]
    exact Nat.lt_succ_of_lt hlt
  obtain ⟨q, hq⟩ := Option.isSome_iff_exists.mp hsome
  have hcycle : b.checkCycle parent a.size = .ok () ↔ a.size ∉ b.lineage parent := by
    rw [checkCycle, hq, hc]
    dsimp only
    split <;> simp [*]
  have hcheck : b.checkAttach parent a.size = .ok () ↔ b.checkCycle parent a.size = .ok () := by
    rw [Arena.checkAttach_eq_ok_iff]
    constructor
    · rintro ⟨_, -, -, hok⟩
      exact hok
    · intro hok
      exact ⟨c, hc, hck ▸ h.checkPlace hplace, hok⟩
  rw [hcheck, hcycle, h.isForest.mem_lineage_iff, h.reaches_iff hforest hlt]
  simp only [hforest.mem_lineage_iff]

/-- A node that hangs below itself is made and then left on its own. -/
theorem IsForest.createBelow_of_hangsBelowItself (h : a.IsForest) {parent : NodeId}
    {kind : NodeKind} (hbelow : a.HangsBelowItself (.createBelow parent kind)) :
    ∃ b e, Created a b kind ∧ a.create kind = (.ok a.size, b) ∧
      a.createBelow parent kind = (.error e, b) := by
  obtain ⟨hplace, hcheck, hs⟩ := hbelow
  obtain ⟨b, hb, hcreated⟩ := h.created_of_checkCreate hcheck
  have hrefused := mt (hcreated.checkAttach_eq_ok_iff h hplace).mp (not_not_intro hs)
  rcases hattach : b.checkAttach parent a.size with e | ⟨⟩
  · exact ⟨b, e, hcreated, hb, by simp only [createBelow, hplace, hb, attach, hattach]⟩
  · exact absurd hattach hrefused

theorem IsForest.createBelow_of_error (h : a.IsForest) {parent : NodeId} {kind : NodeKind}
    {e : ConstructionError} (herror : (a.createBelow parent kind).1 = .error e)
    (hbelow : ¬ a.HangsBelowItself (.createBelow parent kind)) :
    (a.createBelow parent kind).2 = a := by
  rcases hplace : a.checkPlace parent kind none with e' | ⟨⟩
  · simp only [createBelow, hplace]
  · rcases hcheck : a.checkCreate kind with e' | ⟨⟩
    · simp only [createBelow, hplace, create, hcheck]
    · obtain ⟨b, hb, hcreated⟩ := h.created_of_checkCreate hcheck
      have hattach : b.checkAttach parent a.size = .ok () :=
        (hcreated.checkAttach_eq_ok_iff h hplace).mpr fun hs => hbelow ⟨hplace, hcheck, hs⟩
      simp [createBelow, hplace, hb, attach, hattach] at herror

/-- A source that has moved below a new node had another place before. -/
theorem Created.not_keeps {kind : NodeKind} (h : Created a b kind) (hforest : a.IsForest)
    {s : NodeId} (hs : s ∈ kind.subqueries) : ¬ a.Keeps b := by
  intro hkeeps
  obtain ⟨t, ht⟩ := h.sources s hs
  have hparent := hkeeps.parents s (lt_size_of_kind? ht)
  rw [h.parents, if_pos hs] at hparent
  exact absurd (hforest.lt_size_of_parent hparent.symm) (Nat.lt_irrefl _)

theorem apply_createBelow (parent : NodeId) (kind : NodeKind) :
    a.apply (.createBelow parent kind) =
      ((a.createBelow parent kind).1.map some, (a.createBelow parent kind).2) := rfl

theorem eq_error_of_map {α β : Type} {x : Except ConstructionError α} {f : α → β}
    {e : ConstructionError} (h : x.map f = .error e) : x = .error e := by
  cases x with
  | error e' =>
    rw [Except.map, Except.error.injEq] at h
    rw [h]
  | ok => cases h

theorem IsForest.apply_of_error (h : a.IsForest) {op : Operation} {e : ConstructionError}
    (herror : (a.apply op).1 = .error e) (hbelow : ¬ a.HangsBelowItself op) :
    (a.apply op).2 = a := by
  cases op with
  | source t => cases herror
  | create kind => exact h.create_of_error (eq_error_of_map herror)
  | createBelow parent kind => exact h.createBelow_of_error (eq_error_of_map herror) hbelow
  | attach parent child => exact attach_of_error (eq_error_of_map herror)
  | detach id => exact detach_of_error (eq_error_of_map herror)

/-- In every run, a refused operation keeps the trees unless it puts a new node below itself; then
it leaves what creating the node on its own would leave. -/
theorem refused_keeps_iff (operations : List Operation) {op : Operation} {e : ConstructionError}
    (h : ((empty.run operations).apply op).1 = .error e) :
    ((empty.run operations).Keeps ((empty.run operations).apply op).2 ↔
        ¬ (empty.run operations).HangsBelowItself op) ∧
      (((empty.run operations).apply op).2 = empty.run operations ∨
        ∃ parent kind, op = .createBelow parent kind ∧
          ((empty.run operations).apply op).2 =
            ((empty.run operations).apply (.create kind)).2) := by
  have hforest : (empty.run operations).IsForest := empty_isForest.run operations
  by_cases hbelow : (empty.run operations).HangsBelowItself op
  · cases op with
    | createBelow parent kind =>
      obtain ⟨b, e', hcreated, hcreate, hresult⟩ :=
        hforest.createBelow_of_hangsBelowItself hbelow
      obtain ⟨s, hs, -⟩ := hbelow.2.2
      have hafter : ((empty.run operations).apply (.createBelow parent kind)).2 = b := by
        rw [apply_createBelow, hresult]
      have hcreateAfter : ((empty.run operations).apply (.create kind)).2 = b := by
        rw [Arena.apply, hcreate]
      refine ⟨?_, .inr ⟨parent, kind, rfl, hafter.trans hcreateAfter.symm⟩⟩
      rw [hafter]
      exact iff_of_false (hcreated.not_keeps hforest hs) (not_not_intro hbelow)
    | _ => exact hbelow.elim
  · have hsame := hforest.apply_of_error h hbelow
    refine ⟨?_, .inl hsame⟩
    rw [hsame]
    exact iff_of_true (.refl _) hbelow

namespace Users

def table : Table :=
  .ofColumns ⟨1⟩ "users" [⟨⟨"id", .scalar .int64, .empty⟩, "Id", ⟨1⟩, "users"⟩]

def isNotEmpty (source : NodeId) : Expr := .call .exists_ [.subquery source]

/-- A source has one filter at most. -/
theorem secondFilter_keeps_iff :
    ((empty.run [.source table, .filter 1 .null]).apply (.filter 1 .null)).1 =
        .error (.duplicateClause (.clause .filter) .source) ∧
      ((empty.run [.source table, .filter 1 .null]).Keeps
            ((empty.run [.source table, .filter 1 .null]).apply (.filter 1 .null)).2 ↔
          ¬ (empty.run [.source table, .filter 1 .null]).HangsBelowItself (.filter 1 .null)) ∧
        (((empty.run [.source table, .filter 1 .null]).apply (.filter 1 .null)).2 =
            empty.run [.source table, .filter 1 .null] ∨
          ∃ parent kind, Operation.filter 1 .null = .createBelow parent kind ∧
            ((empty.run [.source table, .filter 1 .null]).apply (.filter 1 .null)).2 =
              ((empty.run [.source table, .filter 1 .null]).apply (.create kind)).2) :=
  ⟨rfl, refused_keeps_iff _ rfl⟩

/-- A source that is filtered by itself is taken from its owner before the filter is refused. -/
theorem ownFilter_moves_source :
    ((empty.run [.source table]).apply (.filter 1 (isNotEmpty 1))).1 =
        .error (.invalidChild .filter .source) ∧
      (empty.run [.source table]).parent? 1 = some ownerId ∧
      ((empty.run [.source table]).apply (.filter 1 (isNotEmpty 1))).2.parent? 1 = some 2 ∧
      ¬ (empty.run [.source table]).Keeps
        ((empty.run [.source table]).apply (.filter 1 (isNotEmpty 1))).2 := by
  refine ⟨rfl, rfl, rfl, fun hkeeps => ?_⟩
  have hparent : some 2 = some ownerId := hkeeps.parents 1 (by decide)
  exact absurd hparent (by decide)

end Users

end Arena

end DeclarativeSql
