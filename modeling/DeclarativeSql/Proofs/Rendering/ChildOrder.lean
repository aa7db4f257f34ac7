import DeclarativeSql.Proofs.Query.Attachments
import DeclarativeSql.Proofs.Query.Refusals
import DeclarativeSql.Proofs.Query.Registration
import DeclarativeSql.Proofs.Rendering.ValueCounts

/-!
# The order of children

Clauses are written in an order of their own, whichever was attached first. In a forest there is one
clause of each sort below a source at most, except for joins, and one source below an insert. So the
order of children says nothing beyond the order of joins.
-/
namespace DeclarativeSql

def NodeKind.join? : NodeKind → Option (JoinKind × Table × Expr)
  | join kind table on => some (kind, table, on)
  | _ => none

namespace Clauses

variable {c d : Clauses} {ks ls : List NodeKind}

theorem joins_of_addAll (h : c.addAll ks = .ok d) :
    d.joins = c.joins ++ ks.filterMap NodeKind.join? := by
  induction ks generalizing c with
  | nil =>
    cases h
    exact (List.append_nil _).symm
  | cons k ks ih =>
    obtain ⟨mid, hadd, hrest⟩ := addAll_cons_eq_ok_iff.mp h
    have hmid : mid.joins = c.joins ++ k.join?.toList := by
      cases k <;> cases hadd <;> simp [NodeKind.join?]
    rw [ih hrest, hmid, List.append_assoc, List.filterMap_cons]
    cases k.join? <;> rfl

/-- Clauses are known by the nodes that they are written from, and by the order of the joins. -/
theorem eq_of_kinds (table : Table) (hjoins : d.joins = c.joins)
    (h : ∀ k, k ∈ d.kinds table ↔ k ∈ c.kinds table) : d = c := by
  simp only [mem_kinds_iff_includes] at h
  obtain ⟨joins, filter, groupBy, orderBy, limit, select⟩ := c
  obtain rfl : d.joins = joins := hjoins
  have hfilter : d.filter = filter := Option.ext fun e => h (.filter e)
  have hgroupBy : d.groupBy = groupBy := Option.ext fun e => h (.groupBy e)
  have horderBy : d.orderBy = orderBy := Option.ext fun e => h (.orderBy e)
  have hlimit : d.limit = limit := Option.ext fun e => h (.limit e)
  have hselect : d.select = select := Option.ext fun e => h (.select e)
  rw [← hfilter, ← hgroupBy, ← horderBy, ← hlimit, ← hselect]

/-- The order in which clauses are gathered does not matter, except for joins. -/
theorem ofKinds_congr (hks : AreDistinct ks) (hls : AreDistinct ls) (hc : ofKinds ks = .ok c)
    (hd : ofKinds ls = .ok d) (hmem : ∀ k, k ∈ ls ↔ k ∈ ks)
    (hjoins : ls.filterMap NodeKind.join? = ks.filterMap NodeKind.join?) : d = c := by
  have table : Table := ⟨⟨0⟩, "", [], none, [], []⟩
  refine eq_of_kinds table ?_ fun k => ?_
  · rw [joins_of_addAll hc, joins_of_addAll hd, hjoins]
  · rw [mem_kinds_ofKinds_iff hc hks, mem_kinds_ofKinds_iff hd hls, hmem]

end Clauses

namespace Arena

theorem checkSelectLists_congr {target : InsertTarget} {ks ls : List NodeKind}
    (hks : Clauses.AreDistinct ks) (hls : Clauses.AreDistinct ls)
    (hmem : ∀ k, k ∈ ls ↔ k ∈ ks) : checkSelectLists target ls = checkSelectLists target ks := by
  by_cases hall : ∀ items, .select items ∈ ks → target.columns.length = items.length
  · rw [checkSelectLists_eq_ok_iff.mpr hall,
      checkSelectLists_eq_ok_iff.mpr fun items hitems => hall items ((hmem _).mp hitems)]
  · push Not at hall
    obtain ⟨items, hitems, hne⟩ := hall
    rw [checkSelectLists_of_ne hks hitems hne,
      checkSelectLists_of_ne hls ((hmem _).mpr hitems) hne]

def isJoin (a : Arena) (id : NodeId) : Bool :=
  match a.kind? id with
  | some (.join ..) => true
  | _ => false

theorem joins_kinds (a : Arena) (ids : List NodeId) :
    (a.kinds ids).filterMap NodeKind.join? =
      (ids.filter a.isJoin).filterMap fun id => (a.kind? id).bind NodeKind.join? := by
  rw [kinds, List.filterMap_filterMap, List.filterMap_filter]
  refine List.filterMap_congr fun id _ => ?_
  rw [isJoin, kind?]
  cases hn : a.node? id with
  | none => rfl
  | some n => cases hk : n.kind <;> simp [hk, NodeKind.join?]

/-- The same nodes in the same places, and joins in the same order. -/
structure SameTrees (a b : Arena) : Prop where
  tables : b.tables = a.tables
  size : b.size = a.size
  kinds : ∀ id, b.kind? id = a.kind? id
  parents : ∀ id, b.parent? id = a.parent? id
  joins : ∀ id, (b.childrenOf id).filter a.isJoin = (a.childrenOf id).filter a.isJoin

namespace SameTrees

variable {a b : Arena} {id f : NodeId} {table : Table} {target : InsertTarget}
  (h : SameTrees a b) (ha : a.IsForest) (hb : b.IsForest)

include h

theorem node?_cases (id : NodeId) : a.node? id = none ∧ b.node? id = none ∨
    ∃ n m, a.node? id = some n ∧ b.node? id = some m ∧ m.kind = n.kind := by
  have hkind := h.kinds id
  unfold kind? at hkind
  cases hn : a.node? id with
  | none =>
    rw [hn, Option.map_none, Option.map_eq_none_iff] at hkind
    exact .inl ⟨rfl, hkind⟩
  | some n =>
    rw [hn, Option.map_some, Option.map_eq_some_iff] at hkind
    obtain ⟨m, hm, hsame⟩ := hkind
    exact .inr ⟨n, m, rfl, hm, hsame⟩

include ha hb

theorem mem_childrenOf_iff {c : NodeId} : c ∈ b.childrenOf f ↔ c ∈ a.childrenOf f := by
  rw [hb.mem_childrenOf_iff, ha.mem_childrenOf_iff, HangsBelow, HangsBelow, h.parents]

theorem mem_kinds_iff {k : NodeKind} :
    k ∈ b.kinds (b.childrenOf f) ↔ k ∈ a.kinds (a.childrenOf f) := by
  simp only [Arena.mem_kinds_iff, h.mem_childrenOf_iff ha hb, h.kinds]

theorem ofKinds_eq (hf : a.kind? f = some (.source table)) :
    Clauses.ofKinds (b.kinds (b.childrenOf f)) = Clauses.ofKinds (a.kinds (a.childrenOf f)) := by
  have hf' : b.kind? f = some (.source table) := (h.kinds f).trans hf
  obtain ⟨c, hc⟩ := ha.exists_ofKinds hf
  obtain ⟨d, hd⟩ := hb.exists_ofKinds hf'
  have hjoins : (b.kinds (b.childrenOf f)).filterMap NodeKind.join? =
      (a.kinds (a.childrenOf f)).filterMap NodeKind.join? := by
    have hisJoin : b.isJoin = a.isJoin := by
      funext id
      rw [isJoin, isJoin, h.kinds]
    simp only [joins_kinds, hisJoin, h.joins, h.kinds]
  rw [hc, hd, Clauses.ofKinds_congr (ha.areDistinct_kinds hf) (hb.areDistinct_kinds hf') hc hd
    (fun _ => h.mem_kinds_iff ha hb) hjoins]

theorem sourceParts_eq (id : NodeId) : b.sourceParts id = a.sourceParts id := by
  unfold sourceParts
  rcases h.node?_cases id with ⟨hn, hm⟩ | ⟨n, m, hn, hm, hkind⟩
  · rw [hn, hm]
  · rw [hn, hm]
    simp only [hkind]
    cases hk : n.kind with
    | source table =>
      rw [← childrenOf_of_node? hn, ← childrenOf_of_node? hm,
        h.ofKinds_eq ha hb (hk ▸ kind?_of_node? hn)]
    | _ => rfl

/-- An insert has one child at most. -/
theorem childrenOf_insert_eq (hid : a.kind? id = some (.insert target)) :
    b.childrenOf id = a.childrenOf id := by
  have hperm : (b.childrenOf id).Perm (a.childrenOf id) :=
    (List.perm_ext_iff_of_nodup (hb.nodup_childrenOf id) (ha.nodup_childrenOf id)).mpr
      fun _ => h.mem_childrenOf_iff ha hb
  cases hchildren : a.childrenOf id with
  | nil => exact List.perm_nil.mp (hchildren ▸ hperm)
  | cons first rest =>
    have hone := ha.childrenOf_insert hid hchildren
    rw [← hchildren, hone]
    exact List.perm_singleton.mp (hone ▸ hperm)

theorem insertSourceParts_eq {child : NodeId} {n m : Node} (hn : a.node? child = some n)
    (hm : b.node? child = some m) (hkind : m.kind = n.kind) :
    b.insertSourceParts target child m = a.insertSourceParts target child n := by
  unfold insertSourceParts
  rw [hkind]
  cases hk : n.kind with
  | source table =>
    have hsource : a.kind? child = some (.source table) := hk ▸ kind?_of_node? hn
    have hlists : checkSelectLists target (b.kinds m.children) =
        checkSelectLists target (a.kinds n.children) := by
      rw [← childrenOf_of_node? hn, ← childrenOf_of_node? hm]
      exact checkSelectLists_congr (ha.areDistinct_kinds hsource)
        (hb.areDistinct_kinds ((h.kinds child).trans hsource)) fun _ => h.mem_kinds_iff ha hb
    rw [hlists, h.sourceParts_eq ha hb]
  | _ => rfl

theorem insertParts_eq (children : List NodeId) :
    b.insertParts target children = a.insertParts target children := by
  cases children with
  | nil => rfl
  | cons child rest =>
    rw [insertParts, insertParts]
    rcases h.node?_cases child with ⟨hn, hm⟩ | ⟨n, m, hn, hm, hkind⟩
    · rw [hn, hm]
    · simp only [hn, hm, h.insertSourceParts_eq ha hb hn hm hkind]

theorem statementParts_eq (id : NodeId) : b.statementParts id = a.statementParts id := by
  unfold statementParts
  rw [ownerOf_congr h.size h.parents]
  cases a.ownerOf id with
  | error e => rfl
  | ok owner =>
    rcases h.node?_cases id with ⟨hn, hm⟩ | ⟨n, m, hn, hm, hkind⟩
    · rw [hn, hm]
    · simp only [hn, hm, hkind]
      cases hk : n.kind with
      | source table => exact h.sourceParts_eq ha hb id
      | insert target =>
        have hchildren := h.childrenOf_insert_eq ha hb (hk ▸ kind?_of_node? hn)
        rw [childrenOf_of_node? hn, childrenOf_of_node? hm] at hchildren
        simp only [hchildren, h.insertParts_eq ha hb]
      | _ => rfl

theorem statementDepth_eq (id : NodeId) : b.statementDepth id = a.statementDepth id := by
  have hdepth : ∀ child, (b.node? child).elim b.size b.insertDepth =
      (a.node? child).elim a.size a.insertDepth := by
    intro child
    rcases h.node?_cases child with ⟨hn, hm⟩ | ⟨n, m, hn, hm, hkind⟩
    · rw [hn, hm, h.size]
      rfl
    · simp only [hn, hm, Option.elim_some, insertDepth, hkind, h.size]
  unfold statementDepth
  rcases h.node?_cases id with ⟨hn, hm⟩ | ⟨n, m, hn, hm, hkind⟩
  · rw [hn, hm, h.size]
  · simp only [hn, hm, hkind]
    cases hk : n.kind with
    | insert target =>
      have hchildren := h.childrenOf_insert_eq ha hb (hk ▸ kind?_of_node? hn)
      rw [childrenOf_of_node? hn, childrenOf_of_node? hm] at hchildren
      rw [hchildren]
      cases n.children with
      | nil => exact h.size
      | cons child rest => exact hdepth child
    | _ => exact h.size

omit ha hb in
theorem surroundings_eq {depth : Nat}
    (hbelow : ∀ id, b.selectPieces depth id = a.selectPieces depth id) :
    b.surroundings depth = a.surroundings depth := by
  have halias : b.alias? = a.alias? := by
    funext t
    rw [alias?, alias?, h.tables]
  have hcolumns : b.columnReference = a.columnReference := by
    funext c
    rw [columnReference, columnReference, halias]
  have hintroduce : b.introduce = a.introduce := by
    funext t
    rw [introduce, introduce, halias]
  simp only [surroundings, hcolumns, hintroduce, hbelow, ownerOf_congr h.size h.parents]

theorem selectPieces_eq (depth : Nat) (id : NodeId) :
    b.selectPieces depth id = a.selectPieces depth id := by
  induction depth generalizing id with
  | zero => rfl
  | succ depth ih =>
    rw [selectPieces_succ, selectPieces_succ, h.sourceParts_eq ha hb, h.surroundings_eq ih]

theorem build_eq (id : NodeId) : b.build id = a.build id := by
  rw [build, build, pieces_eq, pieces_eq, h.statementParts_eq ha hb, h.statementDepth_eq ha hb,
    h.surroundings_eq (h.selectPieces_eq ha hb _)]

end SameTrees

/-- The joins among the pairs that go below one source, in order. -/
def joinsTo (a : Arena) (f : NodeId) (pairs : List (NodeId × NodeId)) : List (NodeId × NodeId) :=
  pairs.filter fun p => a.isJoin p.2 && p.1 = f

section Attached

variable {a b c : Arena} {first second : List (NodeId × NodeId)}

theorem Attached.filter_isJoin (h : Attached a b first) (f : NodeId) :
    (b.childrenOf f).filter a.isJoin =
      ((a.childrenOf f).filter (· ∉ first.map Prod.snd)).filter a.isJoin ++
        (a.joinsTo f first).map Prod.snd := by
  rw [h.children, List.filter_append, List.filter_map, joinsTo,
    List.filter_filter (l := first)]
  rfl

theorem Attached.sameTrees (hb : Attached a b first) (hc : Attached a c second)
    (hperm : first.Perm second) (hjoins : ∀ f, a.joinsTo f first = a.joinsTo f second) :
    SameTrees b c where
  tables := hc.tables.trans hb.tables.symm
  size := hc.size.trans hb.size.symm
  kinds := fun id => (hc.kinds id).trans (hb.kinds id).symm
  parents := by
    intro id
    by_cases hid : id ∈ first.map Prod.snd
    · obtain ⟨p, hp, rfl⟩ := List.mem_map.mp hid
      rw [hb.moved p hp, hc.moved p (hperm.mem_iff.mp hp)]
    · rw [hb.others id hid, hc.others id fun h => hid ((hperm.map Prod.snd).mem_iff.mpr h)]
  joins := by
    intro id
    have hisJoin : b.isJoin = a.isJoin := by
      funext id
      rw [isJoin, isJoin, hb.kinds]
    have hstayed : (a.childrenOf id).filter (· ∉ second.map Prod.snd) =
        (a.childrenOf id).filter (· ∉ first.map Prod.snd) :=
      List.filter_congr fun _ _ =>
        decide_eq_decide.mpr (not_congr (hperm.map Prod.snd).mem_iff.symm)
    rw [hisJoin, hb.filter_isJoin, hc.filter_isJoin, hjoins, hstayed]

end Attached

/-- Nodes that are each attached once may be attached in any order in which this is accepted, as
long as the joins of each source keep theirs. Every statement is built alike then, or refused for
the same reason. -/
theorem build_eq_of_perm (operations : List Operation) {first second : List (NodeId × NodeId)}
    (hperm : first.Perm second) (honce : (first.map Prod.snd).Nodup)
    (hjoins : ∀ f, (empty.run operations).joinsTo f first =
      (empty.run operations).joinsTo f second)
    (hfirst : (empty.run operations).Accepts (attachments first))
    (hsecond : (empty.run operations).Accepts (attachments second)) (id : NodeId) :
    (empty.run (operations ++ attachments first)).build id =
      (empty.run (operations ++ attachments second)).build id := by
  have hforest : (empty.run operations).IsForest := empty_isForest.run operations
  have hb := hforest.attached_run honce hfirst
  have hc := hforest.attached_run ((hperm.map Prod.snd).nodup_iff.mp honce) hsecond
  rw [run_append, run_append]
  exact ((hb.sameTrees hc hperm hjoins).build_eq hb.isForest hc.isForest id).symm

namespace Users

def numbered (n : Nat) : Expr := .literal (.source (.value ⟨[n]⟩ (.int (.ofNat n))))

/-- The users with one id. -/
def idIs (n : Nat) : Expr :=
  .binary .equal (.column ⟨⟨"id", .scalar .int64, .empty⟩, "Id", ⟨1⟩, "users"⟩) (numbered n)

/-- Users and four clauses, none of which is attached. -/
def loose : List Operation :=
  [.source table, .create (.limit (numbered 1)), .create (.join .inner pairs (idIs 2)),
    .create (.filter (idIs 3)), .create (.join .left (pairs.aliased ⟨3⟩) (idIs 4))]

/-- The joins are attached in the same order, and the other clauses before or after them. -/
theorem loose_in_two_orders :
    ∃ c, (empty.run (loose ++ attachments [(1, 2), (1, 3), (1, 4), (1, 5)])).build 1 =
        .ok (.immediate c) ∧
      c.text = "SELECT * FROM users t0 JOIN pairs t1 ON t0.id=@p0 " ++
        "LEFT JOIN pairs t2 ON t0.id=@p1 WHERE t0.id=@p2 LIMIT @p3;" ∧
      (empty.run (loose ++ attachments [(1, 4), (1, 3), (1, 5), (1, 2)])).build 1 =
        .ok (.immediate c) := by
  have hsame : (empty.run (loose ++ attachments [(1, 2), (1, 3), (1, 4), (1, 5)])).build 1 =
      (empty.run (loose ++ attachments [(1, 4), (1, 3), (1, 5), (1, 2)])).build 1 := by
    refine build_eq_of_perm loose (by decide) (by decide) (fun f => ?_) ?_ ?_ 1
    · by_cases hf : 1 = f
      · subst hf
        rfl
      · simp [joinsTo, hf]
    · exact ⟨⟨none, rfl⟩, ⟨none, rfl⟩, ⟨none, rfl⟩, ⟨none, rfl⟩, trivial⟩
    · exact ⟨⟨none, rfl⟩, ⟨none, rfl⟩, ⟨none, rfl⟩, ⟨none, rfl⟩, trivial⟩
  refine ⟨_, rfl, ?_, hsame ▸ rfl⟩
  decide +kernel

end Users

end Arena

end DeclarativeSql
