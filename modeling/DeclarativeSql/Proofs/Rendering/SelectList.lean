import DeclarativeSql.Proofs.Query.Refusals
import DeclarativeSql.Proofs.Query.Registration
import DeclarativeSql.Proofs.Rendering.Clauses
import DeclarativeSql.Record.Mapping

/-!
# Select lists of columns

A list of columns takes the place of all columns at the head of a query and leaves the rest as it
is: the columns stand there in their order, each under the alias of its table and named after its
position. Such a list can be put below every source that has none, and the query of a new source is
then written with it.
-/
namespace DeclarativeSql

/-- The buffer has the text, and nothing else. -/
inductive CodeBuffer.Holds : CodeBuffer → String → Prop
  | nothing : Holds .empty ""
  | text (s : String) : Holds ⟨[.text s], []⟩ s

namespace CodeBuffer.Holds

variable {b : CodeBuffer} {s : String}

theorem append (h : b.Holds s) (token : String) :
    (b.append token).Holds (Spacing.join s token) := by
  rw [CodeBuffer.append]
  split
  next hempty =>
    obtain rfl := String.isEmpty_iff.mp hempty
    have hjoin : Spacing.join s "" = s := by simp [Spacing.join, String.front?_eq]
    rwa [hjoin]
  next =>
    cases h with
    | nothing =>
      have hjoin : Spacing.join "" token = token := by simp [Spacing.join, String.back?_eq]
      rw [hjoin]
      exact .text token
    | text s => exact .text (Spacing.join s token)

theorem writeAll (h : b.Holds s) (tokens : List String) :
    ∃ b', Piece.writeAll (tokens.map .text) b = (.ok (), b') ∧
      b'.Holds (tokens.foldl Spacing.join s) := by
  induction tokens generalizing b s with
  | nil => exact ⟨b, rfl, h⟩
  | cons token tokens ih => exact ih (h.append token)

theorem ofBuffer_eq (h : b.Holds s) : Command.ofBuffer b = .immediate ⟨s, []⟩ := by
  cases h <;> simp [Command.ofBuffer, isDelayed, empty, Segment.isOpen, fixedText, String.join,
    Segment.fixedText]

end CodeBuffer.Holds

namespace Piece

theorem separated_texts (tokens : List (List String)) :
    separated (tokens.map (List.map .text)) = ([","].intercalate tokens).map .text := by
  induction tokens with
  | nil => rfl
  | cons first rest ih =>
    cases rest with
    | nil => simp [separated, List.intercalate]
    | cons second rest =>
      rw [List.map_cons, List.map_cons, separated, ← List.map_cons, ih]
      · simp [List.intercalate, List.intersperse]
      · simp

theorem exists_buffer_texts (tokens : List String) : ∃ b, buffer (tokens.map .text) = .ok b ∧
    Command.ofBuffer b = .immediate ⟨tokens.foldl Spacing.join "", []⟩ := by
  obtain ⟨b, hb, hholds⟩ := CodeBuffer.Holds.nothing.writeAll tokens
  exact ⟨b, by simp only [buffer, hb], hholds.ofBuffer_eq⟩

end Piece

namespace Query

variable {ctx : ExprContext} {introduce : Table → Pieces} {table : Table} {c : Clauses}

/-- The tokens of a column in a select list, by the alias of its table and its position. -/
def columnItem (name : String) (i : Nat) (c : Column) : List String :=
  [name ++ "." ++ c.name, "AS", itemName i]

/-- The tokens at the head of a query that lists the columns of a table. No columns stand for all
of them. -/
def columnsHead (name : String) : List Column → List String
  | [] => ["SELECT * FROM"]
  | c :: rest => "SELECT" :: [","].intercalate ((c :: rest).mapIdx (columnItem name)) ++ ["FROM"]

theorem selectHead_selectList {name : String} {columns : List Column}
    (h : ∀ c ∈ columns, ctx.columnReference c = .ok (name ++ "." ++ c.name)) :
    selectHead ctx (some (RecordMapping.selectList columns)) =
      .ok ((columnsHead name columns).map .text) := by
  cases columns with
  | nil => rfl
  | cons c rest =>
    have hitem : ∀ item ∈ (c :: rest).zipIdx, selectItem ctx (.column item.1, item.2) =
        .ok ((columnItem name item.2 item.1).map .text) := by
      intro item hitem
      rw [selectItem, Expr.pieces, h _ (List.fst_mem_of_mem_zipIdx hitem)]
      rfl
    have hitems : (RecordMapping.selectList (c :: rest)).zipIdx.mapM (selectItem ctx) =
        .ok (((c :: rest).mapIdx (columnItem name)).map (List.map .text)) := by
      rw [RecordMapping.selectList, List.zipIdx_map, List.mapM_map, List.mapIdx_eq_zipIdx_map,
        List.map_map]
      exact mapM_eq_ok_map hitem
    rw [RecordMapping.selectList, List.map_cons] at hitems ⊢
    rw [selectHead, hitems, columnsHead, List.map_append, List.map_cons, ← Piece.separated_texts]
    rfl

/-- What stands behind the head of a query. -/
def afterHead (ctx : ExprContext) (introduce : Table → Pieces) (table : Table) (c : Clauses) :
    Pieces := do
  let introduced ← introduce table
  let joins ← c.joins.mapM (join ctx introduce)
  let filter ← optional "WHERE" (Expr.pieces ctx) c.filter
  let groupBy ← optional "GROUP BY" (exprs ctx) c.groupBy
  let orderBy ← optional "ORDER BY" (orderItems ctx) c.orderBy
  let limit ← optional "LIMIT" (Expr.pieces ctx) c.limit
  return introduced ++ joins.flatten ++ filter ++ groupBy ++ orderBy ++ limit

theorem select_of_selectHead {head : List Piece} (h : selectHead ctx c.select = .ok head) :
    select ctx introduce table c = (afterHead ctx introduce table c).map (head ++ ·) := by
  have hmap : ∀ {α : Type} (x : Except ConstructionError α) (f : α → Pieces),
      (x >>= f).map (head ++ ·) = x >>= fun a => (f a).map (head ++ ·) := by
    intro α x f
    cases x <;> rfl
  rw [select, h, ok_bind, afterHead]
  simp only [hmap, List.append_assoc]
  rfl

end Query

namespace Arena

open RecordMapping (selectList)

variable {a : Arena} {id s : NodeId} {table : Table} {items : List Expr} {columns : List Column}
  {name : String}

theorem selectPieces_of_source {c : Clauses} (hid : a.kind? id = some (.source table))
    (hc : Clauses.ofKinds (a.kinds (a.childrenOf id)) = .ok c) (depth : Nat) :
    a.selectPieces (depth + 1) id =
      Query.select (a.surroundings depth).context a.introduce table c := by
  obtain ⟨n, hn, hk⟩ := Option.map_eq_some_iff.mp hid
  rw [childrenOf_of_node? hn] at hc
  rw [selectPieces_succ, sourceParts, hn]
  simp only [hk, hc]
  exact (Query.select_eq table c).symm

theorem IsForest.select_of_ofKinds (h : a.IsForest) (hid : a.kind? id = some (.source table))
    (hs : a.HangsBelow s id) (hk : a.kind? s = some (.select items)) {c : Clauses}
    (hc : Clauses.ofKinds (a.kinds (a.childrenOf id)) = .ok c) : c.select = some items := by
  have hmem : NodeKind.select items ∈ a.kinds (a.childrenOf id) :=
    mem_kinds_iff.mpr ⟨s, h.mem_childrenOf_iff.mpr hs, hk⟩
  have hincluded : .select items ∈ c.kinds table :=
    Clauses.mem_kinds_addAll hc (h.areDistinct_kinds hid) hmem
  exact Clauses.mem_kinds_iff_includes.mp hincluded

theorem columnReference_of_alias? (hname : a.alias? table.id = some name) {c : Column}
    (hc : c.table = table.id) : a.columnReference c = .ok (name ++ "." ++ c.name) := by
  rw [columnReference, hc, hname]

/-- A list of columns stands where all columns would stand, and the rest of the query is the
same. -/
theorem IsForest.queryPieces_selectList (h : a.IsForest) {source : Table}
    (hid : a.kind? id = some (.source source)) (hs : a.HangsBelow s id)
    (hk : a.kind? s = some (.select (selectList columns)))
    (hname : a.alias? table.id = some name) (howned : ∀ c ∈ columns, c.table = table.id) :
    ∃ (c : Clauses) (rest : Pieces), Clauses.ofKinds (a.kinds (a.childrenOf id)) = .ok c ∧
      Query.select (a.surroundings a.size).context a.introduce source { c with select := none } =
        rest.map (.text "SELECT * FROM" :: ·) ∧
      a.queryPieces id = rest.map ((Query.columnsHead name columns).map .text ++ ·) := by
  obtain ⟨c, hc⟩ := h.exists_ofKinds hid
  have hselect := h.select_of_ofKinds hid hs hk hc
  refine ⟨c, Query.afterHead (a.surroundings a.size).context a.introduce source c, hc, ?_, ?_⟩
  · exact Query.select_of_selectHead (c := { c with select := none }) rfl
  · rw [queryPieces, selectPieces_of_source hid hc]
    apply Query.select_of_selectHead
    rw [hselect]
    exact Query.selectHead_selectList fun column hcolumn =>
      columnReference_of_alias? hname (howned column hcolumn)

/-- A select list without subqueries is accepted below a source that has none. -/
theorem IsForest.createBelow_select (h : a.IsForest) (hid : a.kind? id = some (.source table))
    (hfree : ∀ c k, a.HangsBelow c id → a.kind? c = some k → k.sort ≠ .select)
    (hitems : Expr.subqueriesOf items = []) : a.createBelow id (.select items) =
      (.ok a.size, (a.push (.select items)).graft id a.size) := by
  obtain ⟨n, hn, hnk⟩ := Option.map_eq_some_iff.mp hid
  have hsubqueries : (NodeKind.select items).subqueries = [] := hitems
  have hslot : a.checkSlot n (.select items) none = .ok () := by
    rw [checkSlot_eq_ok_iff, hnk]
    intro slot hslot htaken
    obtain ⟨d, hd, -, k, hk, hks⟩ := slotIsTaken_iff.mp htaken
    rw [← childrenOf_of_node? hn, h.mem_childrenOf_iff] at hd
    refine hfree d k hd hk ?_
    rw [hnk, ← hslot] at hks
    revert hks
    cases k.sort <;> simp [NodeKind.sort, NodeSort.slot?]
  have hplace : a.checkPlace id (.select items) none = .ok () := by
    refine checkPlace_eq_ok_iff.mpr ⟨n, hn, ?_, ?_, hslot⟩ <;> rw [hnk] <;> rfl
  have hcheck : a.checkCreate (.select items) = .ok () :=
    checkCreate_eq_ok_iff.mpr ⟨rfl, by rw [hsubqueries]; rfl, rfl⟩
  have hcreate : a.create (.select items) = (.ok a.size, a.push (.select items)) := by
    simp only [create, hcheck, hsubqueries]
    rfl
  obtain ⟨b, hb, hcreated⟩ := h.created_of_checkCreate hcheck
  obtain rfl := (Prod.mk.inj (hcreate.symm.trans hb)).2
  have hattach := (hcreated.checkAttach_eq_ok_iff h hplace).mpr (by simp [hsubqueries])
  have hroot : (a.push (.select items)).parent? a.size = none := by rw [parent?_push, parent?_size]
  simp only [createBelow, hplace, hcreate, attach, hattach, cut_of_parent?_eq_none hroot]

theorem subqueriesOf_selectList (columns : List Column) :
    Expr.subqueriesOf (selectList columns) = [] := by
  induction columns with
  | nil => rfl
  | cons c columns ih => simpa [selectList, Expr.subqueriesOf, Expr.subqueries] using ih

/-- A new source hangs below the owner, and everything else is where it was. -/
structure Sourced (a b : Arena) (t : Table) : Prop where
  isForest : b.IsForest
  isRegistered : b.IsRegistered
  size : b.size = a.size + 1
  kind : b.kind? a.size = some (.source t)
  parents : ∀ id, b.parent? id = if id = a.size then some ownerId else a.parent? id

theorem IsForest.sourced_addSource (h : a.IsForest) (hr : a.IsRegistered) (t : Table) :
    Sourced a (a.addSource t).2 t := by
  have hsize : (a.register t).size = a.size := size_registerAll (some t)
  have hlt : a.size < ((a.register t).push (.source t)).size := by
    rw [size_push, hsize]
    exact Nat.lt_succ_self _
  exact {
    isForest := h.addSource t
    isRegistered := hr.step (.addSource t)
    size := by rw [Arena.addSource, size_graft, size_push, hsize]
    kind := by rw [Arena.addSource, kind?_graft, kind?_push, hsize, if_pos rfl]
    parents := by
      intro id
      have hparents : (a.register t).parent? id = a.parent? id := parent?_registerAll (some t) id
      rw [Arena.addSource, parent?_graft hlt, parent?_push, hparents] }

theorem Sourced.not_hangsBelow {b : Arena} {t : Table} (h : Sourced a b t) (ha : a.IsForest)
    (c : NodeId) : ¬ b.HangsBelow c a.size := by
  intro hc
  rw [HangsBelow, h.parents] at hc
  split at hc
  · have howner : ownerId < a.size := lt_size_of_kind? ha.owner
    exact absurd (Option.some.inj hc) (Nat.ne_of_lt howner)
  · exact Nat.lt_irrefl _ (ha.lt_size_of_parent hc)

/-- The arena with a new query of a table, which selects the columns. -/
def selecting (a : Arena) (t : Table) (columns : List Column) : Arena :=
  a.run [.source t, .select a.size (selectList columns)]

/-- The select list is the only clause of the new query, which hangs below the owner. -/
structure Selecting (b : Arena) (id : NodeId) (t : Table) (columns : List Column) : Prop where
  isForest : b.IsForest
  isRegistered : b.IsRegistered
  kind : b.kind? id = some (.source t)
  parent : b.parent? id = some ownerId
  clauses : b.kinds (b.childrenOf id) = [.select (selectList columns)]

theorem IsForest.selecting (h : a.IsForest) (hr : a.IsRegistered) (t : Table)
    (columns : List Column) : Selecting (a.selecting t columns) a.size t columns := by
  have hs := h.sourced_addSource hr t
  set b := (a.addSource t).2
  have hcreate := hs.isForest.createBelow_select hs.kind
    (fun c _ hc => (hs.not_hangsBelow h c hc).elim) (subqueriesOf_selectList columns)
  have hrun : a.selecting t columns =
      (b.push (.select (selectList columns))).graft a.size b.size := by
    change (b.createBelow a.size (.select (selectList columns))).2 = _
    rw [hcreate]
  have hne : a.size ≠ b.size := by
    rw [hs.size]
    exact Nat.ne_of_lt (Nat.lt_succ_self _)
  have hold : a.size < (b.push (.select (selectList columns))).size := by
    rw [size_push, hs.size]
    omega
  have hnew : b.size < (b.push (.select (selectList columns))).size := by
    rw [size_push]
    exact Nat.lt_succ_self _
  have hnone : b.childrenOf a.size = [] := by
    refine List.eq_nil_iff_forall_not_mem.mpr fun c hc => ?_
    exact hs.not_hangsBelow h c (hs.isForest.mem_childrenOf_iff.mp hc)
  have hkind : (a.selecting t columns).kind? b.size = some (.select (selectList columns)) := by
    rw [hrun, kind?_graft, kind?_push, if_pos rfl]
  have hchildren : (a.selecting t columns).childrenOf a.size = [b.size] := by
    rw [hrun, childrenOf_graft hold, if_pos rfl, childrenOf_push, hnone, List.nil_append]
  exact {
    isForest := h.run _
    isRegistered := (a.leads_run _).preserves (fun _ _ hstep hr => hr.step hstep) hr
    kind := by rw [hrun, kind?_graft, kind?_push, if_neg hne, hs.kind]
    parent := by rw [hrun, parent?_graft hnew, if_neg hne, parent?_push, hs.parents, if_pos rfl]
    clauses := by
      rw [hchildren]
      exact List.filterMap_cons_some hkind }

/-- The command of a new query that selects columns of its table: they stand in front of it in
their order, and nothing stands behind it. -/
theorem Selecting.build {b : Arena} (h : Selecting b id table columns)
    (howned : ∀ c ∈ columns, c.table = table.id) :
    ∃ (i : Nat) (found : Table), b.tables[i]? = some found ∧ found.id = table.id ∧
      b.build id = .ok (.immediate ⟨(Query.columnsHead (aliasName i) columns ++
        [table.name, aliasName i, ";"]).foldl Spacing.join "", []⟩) := by
  obtain ⟨name, hname⟩ := Option.isSome_iff_exists.mp
    (isSome_alias?_iff.mpr (h.isRegistered.own h.kind rfl))
  obtain ⟨i, found, hfound, hsame, rfl⟩ := (alias?_eq_some_iff h.isRegistered.distinct).mp hname
  refine ⟨i, found, hfound, hsame, ?_⟩
  have howner : b.ownerOf id = .ok ownerId := by
    refine h.isForest.ownerOf_eq_ok_iff.mpr (.single ?_)
    exact h.isForest.mem_childrenOf_iff.mpr h.parent
  have hintroduce : b.introduce table = .ok [.text table.name, .text (aliasName i)] := by
    rw [introduce, hname]
  have hc : Clauses.ofKinds (b.kinds (b.childrenOf id)) =
      .ok { Clauses.empty with select := some (selectList columns) } := by
    rw [h.clauses]
    rfl
  have hhead : Query.selectHead (b.surroundings b.size).context (some (selectList columns)) =
      .ok ((Query.columnsHead (aliasName i) columns).map .text) :=
    Query.selectHead_selectList fun c hc => columnReference_of_alias? hname (howned c hc)
  have hpieces : b.pieces id =
      .ok ((Query.columnsHead (aliasName i) columns ++ [table.name, aliasName i]).map .text) := by
    have hquery : b.pieces id = b.queryPieces id := by
      obtain ⟨n, hn, hk⟩ := Option.map_eq_some_iff.mp h.kind
      simp only [pieces, howner, ok_bind, node, hn, hk]
    rw [hquery, queryPieces, selectPieces_of_source h.kind hc, Query.select_of_selectHead hhead,
      Query.afterHead, hintroduce, List.map_append]
    rfl
  obtain ⟨buffer, hbuffer, hcommand⟩ := Piece.exists_buffer_texts
    (Query.columnsHead (aliasName i) columns ++ [table.name, aliasName i, ";"])
  have hend : (Query.columnsHead (aliasName i) columns ++ [table.name, aliasName i]).map
      Piece.text ++ [Piece.text ";"] =
        (Query.columnsHead (aliasName i) columns ++ [table.name, aliasName i, ";"]).map .text := by
    simp
  rw [Arena.build, hpieces, ok_bind, hend, hbuffer, ok_bind, hcommand]
  rfl

/-- Wherever the table is used, its columns stand in their order where all columns would stand, and
a new query of them has its command. -/
structure SelectsInOrder (a : Arena) (t : Table) : Prop where
  listed : ∀ {id s node : NodeId} {source : Table} {kind : NodeKind},
    a.kind? id = some (.source source) → a.HangsBelow s id →
    a.kind? s = some (.select (selectList t.columns)) →
    a.kind? node = some kind → kind.table? = some t →
    ∃ (i : Nat) (found : Table) (c : Clauses) (rest : Pieces),
      a.tables[i]? = some found ∧ found.id = t.id ∧
      Clauses.ofKinds (a.kinds (a.childrenOf id)) = .ok c ∧
      Query.select (a.surroundings a.size).context a.introduce source { c with select := none } =
        rest.map (.text "SELECT * FROM" :: ·) ∧
      a.queryPieces id = rest.map ((Query.columnsHead (aliasName i) t.columns).map .text ++ ·)
  written : ∃ (i : Nat) (found : Table), (a.selecting t t.columns).tables[i]? = some found ∧
    found.id = t.id ∧ (a.selecting t t.columns).build a.size =
      .ok (.immediate ⟨(Query.columnsHead (aliasName i) t.columns ++
        [t.name, aliasName i, ";"]).foldl Spacing.join "", []⟩)

theorem IsForest.selectsInOrder (h : a.IsForest) (hr : a.IsRegistered)
    (howned : ∀ c ∈ table.columns, c.table = table.id) : a.SelectsInOrder table := by
  constructor
  · intro id s node source kind hid hs hk hnode htable
    obtain ⟨name, hname⟩ := Option.isSome_iff_exists.mp
      (isSome_alias?_iff.mpr (hr.own hnode htable))
    obtain ⟨i, found, hfound, hsame, rfl⟩ := (alias?_eq_some_iff hr.distinct).mp hname
    obtain ⟨c, rest, hc, hall, hlisted⟩ := h.queryPieces_selectList hid hs hk hname howned
    exact ⟨i, found, c, rest, hfound, hsame, hc, hall, hlisted⟩
  · exact (h.selecting hr table table.columns).build howned

end Arena

end DeclarativeSql
