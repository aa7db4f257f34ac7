import DeclarativeSql.Proofs.Query.Checks
import DeclarativeSql.Proofs.Rendering.Leaves

/-!
# Leaves of statements

A query shows the leaves of its source and of the clauses below it, and nothing else. In a forest no
two clauses stand for each other, so each of them is shown.
-/
namespace DeclarativeSql

namespace Part

variable {α : Type} {xs : List α} {l f : α → List Part}

theorem ComeFrom.flatten (h : ∀ x ∈ xs, ComeFrom (l x) (f x)) :
    ComeFrom (xs.flatMap l) (xs.map f).flatten := by
  intro p hp
  rw [← List.flatMap_def] at hp
  obtain ⟨x, hx, hp⟩ := List.mem_flatMap.mp hp
  exact (h x hx p hp).imp_left fun hl => List.mem_flatMap.mpr ⟨x, hx, hl⟩

theorem Show.flatten (h : ∀ x ∈ xs, Show (l x) (f x)) :
    Show (xs.flatMap l) (xs.map f).flatten := by
  rw [← List.flatMap_def]
  intro p hp
  obtain ⟨x, hx, hp⟩ := List.mem_flatMap.mp hp
  exact (h x hx).mono (fun q hq => List.mem_flatMap.mpr ⟨x, hx, hq⟩) p hp

end Part

namespace NodeKind

/-- The parts that the expressions and the names of a node stand for. -/
def leaves : NodeKind → List Part
  | source t => [.table t]
  | join _ t on => .table t :: on.leaves
  | insert target =>
    .text target.table.name :: (target.columns.map fun c => .text c.name) ++
      .table target.table :: Expr.leavesOf target.guard.toList
  | k => Expr.leavesOf k.expressions

theorem subquery_mem_leaves_iff (k : NodeKind) (g : NodeId) :
    .subquery g ∈ k.leaves ↔ g ∈ k.subqueries := by
  have hall : ∀ es : List Expr, Part.subquery g ∈ Expr.leavesOf es ↔ g ∈ Expr.subqueriesOf es := by
    intro es
    rw [Expr.mem_leavesOf_iff, Expr.mem_subqueriesOf_iff]
    exact exists_congr fun e => and_congr_right fun _ => e.subquery_mem_leaves_iff g
  cases k with
  | join kind t on =>
    simpa [leaves, subqueries, expressions, Expr.subqueriesOf] using on.subquery_mem_leaves_iff g
  | source t => simp [leaves, subqueries, expressions, Expr.subqueriesOf]
  | insert target => simpa [leaves, subqueries, expressions] using hall target.guard.toList
  | _ => exact hall _

theorem isLeaf_of_mem_leaves (k : NodeKind) {p : Part} (hp : p ∈ k.leaves) : p.IsLeaf := by
  have hall : ∀ es : List Expr, p ∈ Expr.leavesOf es → p.IsLeaf := by
    intro es hp
    obtain ⟨e, -, hp⟩ := Expr.mem_leavesOf_iff.mp hp
    exact e.isLeaf_of_mem_leaves p hp
  cases k with
  | source t => rw [List.mem_singleton.mp hp]; trivial
  | join kind t on =>
    rcases List.mem_cons.mp hp with rfl | hp
    · trivial
    · exact on.isLeaf_of_mem_leaves p hp
  | insert target =>
    simp only [leaves, List.mem_append, List.mem_cons, List.mem_map] at hp
    rcases hp with (rfl | ⟨c, -, rfl⟩) | rfl | hp
    · trivial
    · trivial
    · trivial
    · exact hall _ hp
  | _ => exact hall _ hp

theorem leaves_filter (e : Expr) : (filter e).leaves = e.leaves := List.append_nil _

theorem leaves_limit (e : Expr) : (limit e).leaves = e.leaves := List.append_nil _

end NodeKind

namespace Clauses

/-- The nodes that a query of a table is written from, in the order of its text. -/
def kinds (table : Table) (c : Clauses) : List NodeKind :=
  c.select.toList.map .select ++ [NodeKind.source table] ++
    c.joins.map (fun j => NodeKind.join j.1 j.2.1 j.2.2) ++
    c.filter.toList.map .filter ++ c.groupBy.toList.map .groupBy ++
    c.orderBy.toList.map .orderBy ++ c.limit.toList.map .limit

variable {table : Table} {c c' : Clauses} {k x : NodeKind}

/-- What such a query is written from, clause by clause. -/
def Includes (table : Table) (c : Clauses) : NodeKind → Prop
  | .source t => t = table
  | .select items => c.select = some items
  | .join kind t on => (kind, t, on) ∈ c.joins
  | .filter e => c.filter = some e
  | .groupBy keys => c.groupBy = some keys
  | .orderBy items => c.orderBy = some items
  | .limit e => c.limit = some e
  | _ => False

theorem mem_kinds_iff_includes : k ∈ c.kinds table ↔ c.Includes table k := by
  cases k <;> simp [kinds, Includes]

/-- A clause takes the place of the one of its own sort, but joins stay. -/
theorem mem_kinds_add_iff (h : c.add k = .ok c') : x ∈ c'.kinds table ↔
    x = k ∨ x ∈ c.kinds table ∧ (x.sort = k.sort → x.sort = .join) := by
  simp only [mem_kinds_iff_includes]
  cases k <;> cases h <;> cases x <;> simp [Includes, NodeKind.sort, eq_comm, or_comm]

theorem addAll_cons_eq_ok_iff {ks : List NodeKind} :
    c.addAll (k :: ks) = .ok c' ↔ ∃ d, c.add k = .ok d ∧ d.addAll ks = .ok c' := by
  rw [addAll]
  cases c.add k <;> simp

theorem mem_kinds_of_addAll {ks : List NodeKind} (h : c.addAll ks = .ok c')
    (hx : x ∈ c'.kinds table) : x ∈ c.kinds table ∨ x ∈ ks := by
  induction ks generalizing c with
  | nil => cases h; exact .inl hx
  | cons k ks ih =>
    obtain ⟨d, hadd, h⟩ := addAll_cons_eq_ok_iff.mp h
    rcases ih h with hx | hx
    · rcases (mem_kinds_add_iff hadd).mp hx with rfl | ⟨hx, -⟩
      · exact .inr List.mem_cons_self
      · exact .inl hx
    · exact .inr (List.mem_cons_of_mem _ hx)

theorem mem_kinds_addAll_of_mem {ks : List NodeKind} (h : c.addAll ks = .ok c')
    (hx : x ∈ c.kinds table) (hsort : ∀ k ∈ ks, x.sort = k.sort → x.sort = .join) :
    x ∈ c'.kinds table := by
  induction ks generalizing c with
  | nil => cases h; exact hx
  | cons k ks ih =>
    obtain ⟨d, hadd, h⟩ := addAll_cons_eq_ok_iff.mp h
    exact ih h ((mem_kinds_add_iff hadd).mpr (.inr ⟨hx, hsort k List.mem_cons_self⟩))
      fun k hk => hsort k (List.mem_cons_of_mem _ hk)

theorem exists_ofKinds {ks : List NodeKind}
    (h : ∀ k ∈ ks, NodeSort.source.accepts k.sort = true) : ∃ c, ofKinds ks = .ok c := by
  have hall : ∀ c : Clauses, ∃ c', c.addAll ks = .ok c' := by
    induction ks with
    | nil => exact fun c => ⟨c, rfl⟩
    | cons k ks ih =>
      intro c
      have hadd : ∃ d, c.add k = .ok d := by
        have hk := h k List.mem_cons_self
        cases k <;> first | exact ⟨_, rfl⟩ | cases hk
      obtain ⟨d, hd⟩ := hadd
      obtain ⟨c', hc'⟩ := ih (fun l hl => h l (List.mem_cons_of_mem _ hl)) d
      exact ⟨c', addAll_cons_eq_ok_iff.mpr ⟨d, hd, hc'⟩⟩
  exact hall .empty

/-- No two of the clauses stand for each other. -/
def AreDistinct (ks : List NodeKind) : Prop :=
  ks.Pairwise fun k l => k.sort = l.sort → k.sort = .join

theorem mem_kinds_addAll {ks : List NodeKind} (h : c.addAll ks = .ok c') (hks : AreDistinct ks)
    (hx : x ∈ ks) : x ∈ c'.kinds table := by
  induction ks generalizing c with
  | nil => cases hx
  | cons k ks ih =>
    obtain ⟨d, hadd, hrest⟩ := addAll_cons_eq_ok_iff.mp h
    have hpair := List.pairwise_cons.mp hks
    rcases List.mem_cons.mp hx with rfl | hx
    · exact mem_kinds_addAll_of_mem hrest ((mem_kinds_add_iff hadd).mpr (.inl rfl)) hpair.1
    · exact ih hrest hpair.2 hx

theorem mem_kinds_ofKinds_iff {ks : List NodeKind} {c : Clauses} (h : ofKinds ks = .ok c)
    (hks : AreDistinct ks) {table : Table} {x : NodeKind} :
    x ∈ c.kinds table ↔ x = .source table ∨ x ∈ ks := by
  constructor
  · exact fun hx => (mem_kinds_of_addAll h hx).imp_left (by simp [kinds, empty])
  · rintro (rfl | hx)
    · simp [kinds]
    · exact mem_kinds_addAll h hks hx

end Clauses

theorem isPlainText_toString (n : Nat) : IsPlainText (toString n) := by
  have hdigits : ∀ c ∈ (toString n).toList, c.isDigit = true := by
    intro c hc
    rw [Nat.toString_eq_repr, Nat.toList_repr] at hc
    exact Nat.isDigit_of_mem_toDigits (by decide) (by decide) hc
  exact ⟨fun h => absurd (hdigits _ h) (by decide), fun h => absurd (hdigits _ h) (by decide)⟩

namespace Query

open DeclarativeSql.Part (ComeFrom Show)

theorem isPlainText_itemName (i : Nat) : IsPlainText (itemName i) := by
  have hdigits := isPlainText_toString i
  unfold IsPlainText at hdigits ⊢
  simpa [itemName] using hdigits

theorem leavesOf_zipIdx (es : List Expr) (n : Nat) :
    ((es.zipIdx n).flatMap fun item => item.1.leaves) = Expr.leavesOf es := by
  rw [Expr.leavesOf_eq_flatMap]
  induction es generalizing n with
  | nil => rfl
  | cons e es ih => rw [List.zipIdx_cons, List.flatMap_cons, ih, List.flatMap_cons]

theorem comeFrom_exprsParts (es : List Expr) :
    ComeFrom (Expr.leavesOf es) (exprsParts es) := by
  rw [Expr.leavesOf_eq_flatMap]
  exact .separated fun e _ => e.comeFrom_parts

theorem show_exprsParts (es : List Expr) : Show (Expr.leavesOf es) (exprsParts es) := by
  rw [Expr.leavesOf_eq_flatMap]
  exact .separated fun e _ => e.show_parts

theorem comeFrom_filterParts (e : Expr) : ComeFrom (NodeKind.filter e).leaves e.parts := by
  rw [NodeKind.leaves_filter]
  exact e.comeFrom_parts

theorem show_filterParts (e : Expr) : Show (NodeKind.filter e).leaves e.parts := by
  rw [NodeKind.leaves_filter]
  exact e.show_parts

theorem comeFrom_limitParts (e : Expr) : ComeFrom (NodeKind.limit e).leaves e.parts := by
  rw [NodeKind.leaves_limit]
  exact e.comeFrom_parts

theorem show_limitParts (e : Expr) : Show (NodeKind.limit e).leaves e.parts := by
  rw [NodeKind.leaves_limit]
  exact e.show_parts

theorem comeFrom_selectHeadParts (select : Option (List Expr)) :
    ComeFrom ((select.toList.map NodeKind.select).flatMap NodeKind.leaves)
      (selectHeadParts select) := by
  match select with
  | none | some [] => exact .text (by decide)
  | some (e :: rest) =>
    have hitem : ∀ item ∈ (e :: rest).zipIdx, ComeFrom item.1.leaves (selectItemParts item) := by
      intro item _
      simpa [selectItemParts] using item.1.comeFrom_parts.append
        ((ComeFrom.text (by decide)).append (.text (isPlainText_itemName item.2)))
    have hitems := ComeFrom.separated hitem
    rw [leavesOf_zipIdx] at hitems
    simpa [NodeKind.leaves, NodeKind.expressions, selectHeadParts] using
      hitems.enclosed "SELECT" "FROM" (by decide) (by decide)

theorem show_selectHeadParts (select : Option (List Expr)) :
    Show ((select.toList.map NodeKind.select).flatMap NodeKind.leaves)
      (selectHeadParts select) := by
  match select with
  | none | some [] => exact .nil
  | some (e :: rest) =>
    have hitem : ∀ item ∈ (e :: rest).zipIdx, Show item.1.leaves (selectItemParts item) :=
      fun item _ => item.1.show_parts.mono (List.subset_append_left _ _)
    have hitems := Show.separated hitem
    rw [leavesOf_zipIdx] at hitems
    simpa [NodeKind.leaves, NodeKind.expressions] using hitems.mono (by simp [selectHeadParts])

section Optional

variable {α : Type} {kind : α → NodeKind} {parts : α → List Part} {keyword : String}

theorem comeFrom_optionalParts (hkeyword : IsPlainText keyword)
    (h : ∀ x, ComeFrom (kind x).leaves (parts x)) (x : Option α) :
    ComeFrom ((x.toList.map kind).flatMap NodeKind.leaves) (optionalParts keyword parts x) := by
  cases x with
  | none => exact fun _ hp => absurd hp List.not_mem_nil
  | some x => simpa [optionalParts] using (ComeFrom.text hkeyword).append (h x)

theorem show_optionalParts (h : ∀ x, Show (kind x).leaves (parts x)) (x : Option α) :
    Show ((x.toList.map kind).flatMap NodeKind.leaves) (optionalParts keyword parts x) := by
  cases x with
  | none => exact .nil
  | some x => simpa [optionalParts] using (h x).mono (List.subset_cons_self _ _)

end Optional

theorem comeFrom_joinParts (j : JoinKind × Table × Expr) :
    ComeFrom (NodeKind.join j.1 j.2.1 j.2.2).leaves (joinParts j) := by
  have htext : IsPlainText (joinText j.1) := by cases j.1 <;> decide
  exact (ComeFrom.text htext).append
    (ComeFrom.leaf.append ((ComeFrom.text (by decide)).append j.2.2.comeFrom_parts))

theorem show_joinParts (j : JoinKind × Table × Expr) :
    Show (NodeKind.join j.1 j.2.1 j.2.2).leaves (joinParts j) :=
  (Show.leaf.append (j.2.2.show_parts.mono (List.subset_cons_self _ _))).mono
    (List.subset_cons_self _ _)

theorem leavesOf_orderItems (items : List OrderItem) :
    (items.flatMap fun item => item.expr.leaves) = (NodeKind.orderBy items).leaves := by
  rw [NodeKind.leaves, NodeKind.expressions, Expr.leavesOf_eq_flatMap, List.flatMap_map]
  all_goals simp

theorem comeFrom_orderItemsParts (items : List OrderItem) :
    ComeFrom (NodeKind.orderBy items).leaves (orderItemsParts items) := by
  rw [← leavesOf_orderItems]
  refine ComeFrom.separated fun item _ => ?_
  have horder : IsPlainText (if item.isDescending then "DESC" else "ASC") := by
    cases item.isDescending <;> decide
  simpa [orderItemParts] using item.expr.comeFrom_parts.append (.text horder)

theorem show_orderItemsParts (items : List OrderItem) :
    Show (NodeKind.orderBy items).leaves (orderItemsParts items) := by
  rw [← leavesOf_orderItems]
  exact Show.separated fun item _ => item.expr.show_parts.mono (List.subset_append_left _ _)

theorem comeFrom_selectParts (table : Table) (c : Clauses) :
    ComeFrom ((c.kinds table).flatMap NodeKind.leaves) (selectParts table c) := by
  have hjoins := ComeFrom.flatten fun j (_ : j ∈ c.joins) => comeFrom_joinParts j
  have hwhere : IsPlainText "WHERE" := by decide
  have hgroup : IsPlainText "GROUP BY" := by decide
  have horder : IsPlainText "ORDER BY" := by decide
  have hlimit : IsPlainText "LIMIT" := by decide
  simp only [Clauses.kinds, List.flatMap_append]
  rw [List.flatMap_map (l := c.joins)]
  exact ((((((comeFrom_selectHeadParts c.select).append .leaf).append hjoins).append
    (comeFrom_optionalParts hwhere comeFrom_filterParts c.filter)).append
    (comeFrom_optionalParts hgroup comeFrom_exprsParts c.groupBy)).append
    (comeFrom_optionalParts horder comeFrom_orderItemsParts c.orderBy)).append
    (comeFrom_optionalParts hlimit comeFrom_limitParts c.limit)

theorem show_selectParts (table : Table) (c : Clauses) :
    Show ((c.kinds table).flatMap NodeKind.leaves) (selectParts table c) := by
  have hjoins := Show.flatten fun j (_ : j ∈ c.joins) => show_joinParts j
  simp only [Clauses.kinds, List.flatMap_append]
  rw [List.flatMap_map (l := c.joins)]
  exact ((((((show_selectHeadParts c.select).append .leaf).append hjoins).append
    (show_optionalParts show_filterParts c.filter)).append
    (show_optionalParts show_exprsParts c.groupBy)).append
    (show_optionalParts show_orderItemsParts c.orderBy)).append
    (show_optionalParts show_limitParts c.limit)

theorem comeFrom_insertHeadParts (target : InsertTarget) :
    ComeFrom (NodeKind.insert target).leaves (insertHeadParts target) := by
  have hcolumns : ComeFrom (target.columns.flatMap fun c => [.text c.name])
      (Part.separated (target.columns.map fun c => [.text c.name])) :=
    .separated fun _ _ => .leaf
  have hinto : IsPlainText "INSERT INTO" := by decide
  have hopen : IsPlainText "(" := by decide
  have hclose : IsPlainText ")" := by decide
  have hname := ComeFrom.leaf (p := .text target.table.name)
  have hhead := (((ComeFrom.text hinto).append (hname.append (.text hopen))).append
    hcolumns).append (.text hclose)
  refine ComeFrom.mono hhead fun p hp => ?_
  simp [NodeKind.leaves] at hp ⊢
  grind

theorem comeFrom_insertGuardParts (target : InsertTarget) :
    ComeFrom (NodeKind.insert target).leaves (insertGuardParts target target.guard) := by
  cases hguard : target.guard with
  | none => exact fun _ hp => absurd hp List.not_mem_nil
  | some condition =>
    have hselect : IsPlainText "WHERE NOT EXISTS(SELECT * FROM" := by decide
    have hwhere : IsPlainText "WHERE" := by decide
    have hclose : IsPlainText ")" := by decide
    have htable := ComeFrom.leaf (p := .table target.table)
    have hparts := (((ComeFrom.text hselect).append (htable.append (.text hwhere))).append
      condition.comeFrom_parts).append (.text hclose)
    refine ComeFrom.mono hparts fun p hp => ?_
    simp [NodeKind.leaves, hguard, Expr.leavesOf] at hp ⊢
    grind

theorem comeFrom_insertValuesParts (target : InsertTarget) (items : List Expr) :
    ComeFrom ((NodeKind.values items).leaves ++ (NodeKind.insert target).leaves)
      (insertValuesParts target items) := by
  have hselect : IsPlainText "SELECT" := by decide
  exact ((ComeFrom.text hselect).append (comeFrom_exprsParts items)).append
    (comeFrom_insertGuardParts target)

end Query

namespace Arena

open DeclarativeSql.Part (ComeFrom Show)

variable {a : Arena}

/-- The parts that all nodes stand for. -/
def leaves (a : Arena) : List Part := a.nodes.flatMap fun n => n.kind.leaves

theorem leaves_subset {id : NodeId} {k : NodeKind} (h : a.kind? id = some k) :
    k.leaves ⊆ a.leaves := by
  intro p hp
  simp only [kind?, node?, Option.map_eq_some_iff] at h
  obtain ⟨n, hn, rfl⟩ := h
  exact List.mem_flatMap.mpr ⟨n, List.mem_of_getElem? hn, hp⟩

theorem isLeaf_of_mem_leaves {p : Part} (hp : p ∈ a.leaves) : p.IsLeaf := by
  obtain ⟨n, -, hp⟩ := List.mem_flatMap.mp hp
  exact n.kind.isLeaf_of_mem_leaves hp

theorem mem_kinds_iff {ids : List NodeId} {k : NodeKind} :
    k ∈ a.kinds ids ↔ ∃ id ∈ ids, a.kind? id = some k := by
  simp only [kinds, List.mem_filterMap, kind?]

theorem isEndlessSubquery_of_addAll {c : Clauses} {ks : List NodeKind} {e : ConstructionError}
    (h : c.addAll ks = .error e) : e.isEndlessSubquery = false := by
  induction ks generalizing c with
  | nil => cases h
  | cons k ks ih =>
    rw [Clauses.addAll] at h
    cases hadd : c.add k with
    | error e' =>
      simp only [hadd, Except.error.injEq] at h
      subst h
      cases k <;> cases hadd <;> rfl
    | ok d =>
      simp only [hadd] at h
      exact ih h

theorem comeFrom_sourceParts (id : NodeId) :
    ComeFrom ((a.kinds (id :: a.childrenOf id)).flatMap NodeKind.leaves) (a.sourceParts id) := by
  unfold sourceParts
  cases hn : a.node? id with
  | none => exact .refusal rfl
  | some n =>
    simp only [childrenOf_of_node? hn]
    cases hk : n.kind with
    | source table =>
      simp only
      cases hc : Clauses.ofKinds (a.kinds n.children) with
      | error e => exact .refusal (isEndlessSubquery_of_addAll hc)
      | ok clauses =>
        refine (Query.comeFrom_selectParts table clauses).mono fun p hp => ?_
        obtain ⟨k, hmem, hp⟩ := List.mem_flatMap.mp hp
        refine List.mem_flatMap.mpr ⟨k, ?_, hp⟩
        have hkinds : a.kinds (id :: n.children) = .source table :: a.kinds n.children := by
          rw [kinds, List.filterMap_cons, hn, Option.map_some, hk]
          rfl
        rw [hkinds]
        rcases Clauses.mem_kinds_of_addAll hc hmem with hmem | hmem
        · exact List.mem_cons.mpr (.inl (by simpa [Clauses.kinds, Clauses.empty] using hmem))
        · exact List.mem_cons_of_mem _ hmem
    | _ => exact .refusal rfl

theorem comeFrom_sourceParts_leaves (id : NodeId) : ComeFrom a.leaves (a.sourceParts id) := by
  refine (a.comeFrom_sourceParts id).mono fun p hp => ?_
  obtain ⟨k, hk, hp⟩ := List.mem_flatMap.mp hp
  obtain ⟨_, -, hkind⟩ := mem_kinds_iff.mp hk
  exact leaves_subset hkind hp

theorem eq_mismatch_of_checkSelectLists {target : InsertTarget} {ks : List NodeKind}
    {e : ConstructionError} (h : checkSelectLists target ks = .error e) :
    ∃ n, e = .valueCountMismatch target.table.name target.columns.length n := by
  induction ks with
  | nil => cases h
  | cons k ks ih =>
    cases k with
    | select items =>
      simp only [checkSelectLists, NodeKind.checkValueCount] at h
      split at h
      next he =>
        split at he
        · cases he
        · cases he
          cases h
          exact ⟨items.length, rfl⟩
      next => exact ih h
    | _ => exact ih h

theorem comeFrom_insertSourceParts {id child : NodeId} {target : InsertTarget} {source : Node}
    (hid : a.kind? id = some (.insert target)) (hchild : a.node? child = some source) :
    ComeFrom a.leaves (a.insertSourceParts target child source) := by
  have hhead : ComeFrom a.leaves (Query.insertHeadParts target) :=
    (Query.comeFrom_insertHeadParts target).mono (leaves_subset hid)
  have hkind : source.kind.leaves ⊆ a.leaves := leaves_subset (kind?_of_node? hchild)
  unfold insertSourceParts
  cases hk : source.kind with
  | values items =>
    rw [hk] at hkind
    have hvalues := (Query.comeFrom_insertValuesParts target items).mono
      (List.append_subset.mpr ⟨hkind, leaves_subset hid⟩)
    exact (hhead.append hvalues).mono (List.append_subset.mpr ⟨.refl _, .refl _⟩)
  | source table =>
    cases target.guard with
    | some condition => exact .refusal rfl
    | none =>
      simp only
      cases hcheck : checkSelectLists target (a.kinds source.children) with
      | error e =>
        obtain ⟨n, rfl⟩ := eq_mismatch_of_checkSelectLists hcheck
        exact .refusal rfl
      | ok =>
        exact (hhead.append (comeFrom_sourceParts_leaves child)).mono
          (List.append_subset.mpr ⟨.refl _, .refl _⟩)
  | _ => exact .refusal rfl

theorem comeFrom_insertParts {id : NodeId} {target : InsertTarget}
    (hid : a.kind? id = some (.insert target)) (children : List NodeId) :
    ComeFrom a.leaves (a.insertParts target children) := by
  unfold insertParts
  cases children with
  | nil => exact .refusal rfl
  | cons child rest =>
    simp only
    cases hn : a.node? child with
    | none => exact .refusal rfl
    | some source => exact comeFrom_insertSourceParts hid hn

theorem comeFrom_statementParts (id : NodeId) : ComeFrom a.leaves (a.statementParts id) := by
  unfold statementParts
  cases howner : a.ownerOf id with
  | error e =>
    unfold ownerOf at howner
    split at howner <;> cases howner
    exact .refusal rfl
  | ok owner =>
    cases hn : a.node? id with
    | none => exact .refusal rfl
    | some n =>
      simp only
      cases hk : n.kind with
      | source table => exact comeFrom_sourceParts_leaves id
      | insert target => exact comeFrom_insertParts (hk ▸ kind?_of_node? hn) n.children
      | _ => exact .refusal rfl

theorem IsForest.exists_ofKinds (h : a.IsForest) {f : NodeId} {table : Table}
    (hf : a.kind? f = some (.source table)) :
    ∃ c, Clauses.ofKinds (a.kinds (a.childrenOf f)) = .ok c := by
  refine Clauses.exists_ofKinds fun k hk => ?_
  obtain ⟨child, hchild, hkind⟩ := mem_kinds_iff.mp hk
  exact h.accepted (h.mem_childrenOf_iff.mp hchild) hf hkind

theorem IsForest.areDistinct_kinds (h : a.IsForest) {id : NodeId} {table : Table}
    (hid : a.kind? id = some (.source table)) :
    Clauses.AreDistinct (a.kinds (a.childrenOf id)) := by
  rw [Clauses.AreDistinct, kinds, List.pairwise_filterMap]
  refine List.Pairwise.imp_of_mem ?_ (h.nodup_childrenOf id)
  intro c d hc hd hne k hk l hl hsort
  by_contra hjoin
  have hslot : ∃ slot, NodeSort.source.slot? k.sort = some slot := by
    have haccepted := h.accepted (h.mem_childrenOf_iff.mp hc) hid hk
    rw [NodeKind.sort] at haccepted
    revert haccepted hjoin
    cases k.sort <;> simp [NodeSort.accepts, NodeSort.slot?]
  obtain ⟨slot, hslot⟩ := hslot
  exact hne (h.slots hid (h.mem_childrenOf_iff.mp hc) hk hslot (h.mem_childrenOf_iff.mp hd) hl
    (hsort ▸ hslot))

/-- In a forest a query that is not refused shows all subqueries of its clauses. -/
theorem IsForest.show_sourceParts (h : a.IsForest) {id : NodeId} {table : Table}
    (hid : a.kind? id = some (.source table)) :
    Show ((a.kinds (a.childrenOf id)).flatMap NodeKind.leaves) (a.sourceParts id) := by
  have hdistinct := h.areDistinct_kinds hid
  obtain ⟨n, hn, hk⟩ := Option.map_eq_some_iff.mp hid
  rw [childrenOf_of_node? hn] at hdistinct ⊢
  unfold sourceParts
  simp only [hn, hk]
  cases hc : Clauses.ofKinds (a.kinds n.children) with
  | error e => exact .refusal
  | ok clauses =>
    intro p hp
    obtain ⟨k, hmem, hp⟩ := List.mem_flatMap.mp hp
    exact Query.show_selectParts table clauses p
      (List.mem_flatMap.mpr ⟨k, Clauses.mem_kinds_addAll hc hdistinct hmem, hp⟩)

end Arena

end DeclarativeSql
