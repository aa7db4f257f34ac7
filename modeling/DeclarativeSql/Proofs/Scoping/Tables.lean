import DeclarativeSql.Proofs.Rendering.Clauses
import DeclarativeSql.Proofs.Rendering.Depth
import DeclarativeSql.Proofs.Scoping.Fragment

/-!
# Tables of a query

Which tables a query introduces, and which parts of it have to be in the scope of a table. Both can
be read off the source and the clauses below it.
-/
namespace DeclarativeSql

namespace Part

variable {leaves ps qs : List Part} {p : Part}

theorem tables_append (ps qs : List Part) : tables (ps ++ qs) = tables ps ++ tables qs :=
  List.filterMap_append

theorem mem_tables_iff {t : Table} : t ∈ tables ps ↔ .table t ∈ ps := by
  rw [tables, List.mem_filterMap]
  constructor
  · rintro ⟨p, hp, ht⟩
    cases p <;> cases ht
    exact hp
  · exact fun h => ⟨_, h, rfl⟩

/-- Wording brings no tables. -/
theorem ComeFrom.tables_eq_nil (h : ComeFrom leaves ps) (hleaves : tables leaves = []) :
    tables ps = [] := by
  refine List.eq_nil_iff_forall_not_mem.mpr fun t ht => ?_
  rcases h _ (mem_tables_iff.mp ht) with hmem | hwording
  · rw [← mem_tables_iff, hleaves] at hmem
    cases hmem
  · exact hwording

theorem tables_flatMap_eq_nil {α : Type} {xs : List α} {f : α → List Part}
    (h : ∀ x ∈ xs, tables (f x) = []) : tables (xs.flatMap f) = [] := by
  induction xs with
  | nil => rfl
  | cons x xs ih =>
    rw [List.flatMap_cons, tables_append, h x List.mem_cons_self,
      ih fun y hy => h y (List.mem_cons_of_mem _ hy), List.append_nil]

/-- A column or a query, which may name tables that are introduced elsewhere. -/
def NeedsScope : Part → Prop
  | column _ => True
  | subquery _ => True
  | _ => False

theorem mem_leaves_of_needsScope (hfrom : ComeFrom leaves ps) (hp : p.NeedsScope) (h : p ∈ ps) :
    p ∈ leaves := by
  rcases hfrom p h with hmem | hwording
  · exact hmem
  · cases p <;> first | exact hp.elim | exact hwording.elim

theorem mem_iff_of_needsScope (hfrom : ComeFrom leaves ps) (hshow : Show leaves ps)
    (hok : ¬ Refused ps) (hp : p.NeedsScope) : p ∈ ps ↔ p ∈ leaves :=
  ⟨mem_leaves_of_needsScope hfrom hp, fun h => (hshow p h).resolve_right hok⟩

end Part

namespace Expr

theorem tables_leaves (e : Expr) : Part.tables e.leaves = [] := by
  induction e with
  | literal l => cases l <;> rfl
  | binary op left right hl hr => rw [leaves, Part.tables_append, hl, hr, List.append_nil]
  | unary op e he => exact he
  | call name args hargs =>
    rw [leaves, leavesOf_eq_flatMap]
    exact Part.tables_flatMap_eq_nil hargs
  | array items hitems =>
    rw [leaves, leavesOf_eq_flatMap]
    exact Part.tables_flatMap_eq_nil hitems
  | _ => rfl

theorem tables_leavesOf (es : List Expr) : Part.tables (leavesOf es) = [] := by
  rw [leavesOf_eq_flatMap]
  exact Part.tables_flatMap_eq_nil fun e _ => e.tables_leaves

theorem tables_parts (e : Expr) : Part.tables e.parts = [] :=
  e.comeFrom_parts.tables_eq_nil e.tables_leaves

end Expr

namespace NodeKind

theorem needsScope_mem_leaves_iff (k : NodeKind) {p : Part} (hp : p.NeedsScope) :
    p ∈ k.leaves ↔ p ∈ Expr.leavesOf k.expressions := by
  cases p with
  | column c => cases k <;> simp [leaves, expressions, Expr.leavesOf]
  | subquery g => cases k <;> simp [leaves, expressions, Expr.leavesOf]
  | _ => exact hp.elim

end NodeKind

namespace Clauses

variable {c c' : Clauses} {k : NodeKind}

theorem joins_add (h : c.add k = .ok c') :
    c'.joins.map (·.2.1) = c.joins.map (·.2.1) ++ k.table?.toList := by
  cases k <;> cases h <;> simp [NodeKind.table?]

theorem joins_addAll {ks : List NodeKind} (h : c.addAll ks = .ok c') :
    c'.joins.map (·.2.1) = c.joins.map (·.2.1) ++ ks.filterMap NodeKind.table? := by
  induction ks generalizing c with
  | nil => cases h; simp
  | cons k ks ih =>
    obtain ⟨d, hadd, hrest⟩ := addAll_cons_eq_ok_iff.mp h
    rw [ih hrest, joins_add hadd, List.append_assoc, List.filterMap_cons]
    cases k.table? <;> rfl

end Clauses

namespace Query

theorem tables_exprsParts (es : List Expr) : Part.tables (exprsParts es) = [] :=
  (comeFrom_exprsParts es).tables_eq_nil (Expr.tables_leavesOf es)

theorem tables_selectHeadParts (select : Option (List Expr)) :
    Part.tables (selectHeadParts select) = [] := by
  refine (comeFrom_selectHeadParts select).tables_eq_nil (Part.tables_flatMap_eq_nil fun k hk => ?_)
  obtain ⟨items, -, rfl⟩ := List.mem_map.mp hk
  exact Expr.tables_leavesOf items

theorem tables_optionalParts {α : Type} (keyword : String) {parts : α → List Part}
    (h : ∀ x, Part.tables (parts x) = []) (x : Option α) :
    Part.tables (optionalParts keyword parts x) = [] := by
  cases x with
  | none => rfl
  | some x => exact h x

theorem tables_orderItemsParts (items : List OrderItem) :
    Part.tables (orderItemsParts items) = [] :=
  (comeFrom_orderItemsParts items).tables_eq_nil (Expr.tables_leavesOf _)

theorem tables_joinParts (j : JoinKind × Table × Expr) :
    Part.tables (joinParts j) = [j.2.1] :=
  congrArg (j.2.1 :: ·) j.2.2.tables_parts

theorem tables_selectParts (table : Table) (c : Clauses) :
    Part.tables (selectParts table c) = table :: c.joins.map (·.2.1) := by
  have hjoins : ∀ js : List (JoinKind × Table × Expr),
      Part.tables (js.map joinParts).flatten = js.map (·.2.1) := by
    intro js
    induction js with
    | nil => rfl
    | cons j js ih =>
      rw [List.map_cons, List.flatten_cons, Part.tables_append, tables_joinParts, ih]
      rfl
  simp only [selectParts, Part.tables_append, tables_selectHeadParts, hjoins,
    tables_optionalParts _ Expr.tables_parts, tables_optionalParts _ tables_exprsParts,
    tables_optionalParts _ tables_orderItemsParts, List.append_nil]
  rfl

end Query

namespace Arena

variable {a : Arena}

/-- The tables that the query of a source introduces, by their identities. -/
def tablesOf (a : Arena) (f : NodeId) : List TableId :=
  ((a.kinds (f :: a.childrenOf f)).filterMap NodeKind.table?).map (·.id)

/-- The expressions of the clauses below a source. -/
def clauseExprs (a : Arena) (f : NodeId) : List Expr :=
  (a.kinds (a.childrenOf f)).flatMap NodeKind.expressions

theorem kinds_cons_of_kind? {f : NodeId} {k : NodeKind} (hf : a.kind? f = some k)
    (ids : List NodeId) : a.kinds (f :: ids) = k :: a.kinds ids :=
  List.filterMap_cons_some hf

theorem kind?_of_not_refused {f : NodeId} (hok : ¬ Part.Refused (a.sourceParts f)) :
    ∃ t, a.kind? f = some (.source t) := by
  by_contra hnone
  obtain ⟨e, he⟩ := sourceParts_of_not_source (not_exists.mp hnone)
  exact hok ⟨e, he ▸ List.mem_singleton_self _⟩

theorem tables_sourceParts {f : NodeId} (hok : ¬ Part.Refused (a.sourceParts f)) :
    (Part.tables (a.sourceParts f)).map (·.id) = a.tablesOf f := by
  obtain ⟨t, ht⟩ := kind?_of_not_refused hok
  obtain ⟨n, hn, hk⟩ := Option.map_eq_some_iff.mp ht
  rw [tablesOf, kinds_cons_of_kind? ht, childrenOf_of_node? hn]
  unfold sourceParts at hok ⊢
  simp only [hn, hk] at hok ⊢
  cases hc : Clauses.ofKinds (a.kinds n.children) with
  | error e =>
    simp only [hc] at hok
    exact absurd ⟨e, List.mem_singleton_self _⟩ hok
  | ok clauses =>
    simp only
    rw [Query.tables_selectParts, Clauses.joins_addAll hc]
    rfl

theorem IsForest.mem_sourceParts_iff (h : a.IsForest) {f : NodeId}
    (hok : ¬ Part.Refused (a.sourceParts f)) {p : Part} (hp : p.NeedsScope) :
    p ∈ a.sourceParts f ↔ p ∈ Expr.leavesOf (a.clauseExprs f) := by
  obtain ⟨t, ht⟩ := kind?_of_not_refused hok
  have hleaves : p ∈ (a.kinds (a.childrenOf f)).flatMap NodeKind.leaves ↔
      p ∈ Expr.leavesOf (a.clauseExprs f) := by
    simp only [clauseExprs, List.mem_flatMap, NodeKind.needsScope_mem_leaves_iff _ hp,
      Expr.mem_leavesOf_iff]
    grind
  rw [← hleaves]
  refine ⟨fun hmem => ?_, fun hmem => (h.show_sourceParts ht p hmem).resolve_right hok⟩
  have hleaf := Part.mem_leaves_of_needsScope (a.comeFrom_sourceParts f) hp hmem
  rw [kinds_cons_of_kind? ht, List.flatMap_cons] at hleaf
  rcases List.mem_append.mp hleaf with htable | hleaf
  · rw [List.mem_singleton.mp htable] at hp
    exact hp.elim
  · exact hleaf

end Arena

end DeclarativeSql
