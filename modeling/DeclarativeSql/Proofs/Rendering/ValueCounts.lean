import DeclarativeSql.Proofs.Query.Runs
import DeclarativeSql.Proofs.Rendering.Depth
import Mathlib.Algebra.GroupWithZero.Nat

/-!
# As many values as columns

An insert names columns, and the source below it yields values: those of a list, those of a select
list, or all columns of the tables that a query without a select list reads. Lists are counted, the
first kind when it is attached and the second one when the insert is written. What `*` stands for is
not.
-/
namespace DeclarativeSql

/-- The values of one row of a source. -/
inductive Yield
  | listed (count : Nat)
  /-- Those that `*` stands for. -/
  | all (count : Nat)
  deriving DecidableEq

def Yield.count : Yield → Nat
  | listed n => n
  | all n => n

/-- An empty select list stands for all columns, as a missing one does. -/
def Clauses.yield (table : Table) (c : Clauses) : Yield :=
  match c.select with
  | some (e :: rest) => .listed (e :: rest).length
  | _ => .all (table.columns.length + (c.joins.map fun j => j.2.1.columns.length).sum)

namespace Query

/-- How the text of a source starts. Each expression of a list stands for one value. -/
inductive Opens (ctx : ExprContext) : Yield → List Piece → Prop
  | values {es : List Expr} {items : List (List Piece)} (rest : List Piece) :
      es.mapM (Expr.pieces ctx) = .ok items →
      Opens ctx (.listed es.length) (.text "SELECT" :: Piece.separated items ++ rest)
  | select {es : List Expr} {items : List (List Piece)} (rest : List Piece) :
      es.zipIdx.mapM (selectItem ctx) = .ok items →
      Opens ctx (.listed es.length)
        (.text "SELECT" :: Piece.separated items ++ .text "FROM" :: rest)
  | all (n : Nat) (rest : List Piece) : Opens ctx (.all n) (.text "SELECT * FROM" :: rest)

variable {ctx : ExprContext} {introduce : Table → Pieces} {table : Table} {c : Clauses}

theorem opens_of_select {ps : List Piece} (h : select ctx introduce table c = .ok ps) :
    Opens ctx (c.yield table) ps := by
  simp only [select, bind_eq_ok, pure_eq_ok] at h
  obtain ⟨head, hhead, introduced, -, joins, -, filter, -, groupBy, -, orderBy, -, limit, -,
    rfl⟩ := h
  simp only [List.append_assoc]
  unfold selectHead at hhead
  split at hhead
  next e rest hselect =>
    simp only [bind_eq_ok, pure_eq_ok] at hhead
    obtain ⟨items, hitems, rfl⟩ := hhead
    rw [Clauses.yield, hselect, List.append_assoc]
    exact .select _ hitems
  next hselect =>
    obtain rfl := Except.ok.inj hhead
    have hall : c.yield table =
        .all (table.columns.length + (c.joins.map fun j => j.2.1.columns.length).sum) := by
      unfold Clauses.yield
      split
      next e rest hother => exact absurd hother (hselect e rest)
      next => rfl
    rw [hall]
    exact .all _ _

theorem opens_of_insertValues {target : InsertTarget} {items : List Expr} {ps : List Piece}
    (h : insertValues ctx introduce target items = .ok ps) :
    Opens ctx (.listed items.length) ps := by
  simp only [insertValues, exprs, bind_eq_ok, pure_eq_ok] at h
  obtain ⟨_, ⟨values, hvalues, rfl⟩, guard, -, rfl⟩ := h
  exact .values guard hvalues

end Query

namespace Arena

variable {a : Arena} {id child : NodeId} {target : InsertTarget}

/-- The values of one row of the source at a node. -/
def yield (a : Arena) (id : NodeId) : Except ConstructionError Yield := do
  let n ← a.node id
  match n.kind with
  | .values items => return .listed items.length
  | .source table => return (← Clauses.ofKinds (a.kinds n.children)).yield table
  | kind => .error (notA kind.sort "query")

/-- A value count that does not fit. -/
def mismatch (target : InsertTarget) (items : List Expr) : ConstructionError :=
  .valueCountMismatch target.table.name target.columns.length items.length

theorem checkValueCount_eq_ok_iff {n : Nat} :
    NodeKind.checkValueCount target n = .ok () ↔ target.columns.length = n := by
  unfold NodeKind.checkValueCount
  split <;> simp [*]

theorem checkValueCount_of_ne {items : List Expr} (h : target.columns.length ≠ items.length) :
    NodeKind.checkValueCount target items.length = .error (mismatch target items) := if_neg h

theorem checkSelectLists_cons {k : NodeKind} {ks : List NodeKind}
    (h : ∀ items, k ≠ .select items) :
    checkSelectLists target (k :: ks) = checkSelectLists target ks := by
  cases k with
  | select items => exact absurd rfl (h items)
  | _ => rfl

theorem checkSelectLists_eq_ok_iff {ks : List NodeKind} : checkSelectLists target ks = .ok () ↔
    ∀ items, .select items ∈ ks → target.columns.length = items.length := by
  induction ks with
  | nil => simp [checkSelectLists]
  | cons k ks ih =>
    by_cases hk : ∃ items, k = .select items
    · obtain ⟨items, rfl⟩ := hk
      by_cases hcount : target.columns.length = items.length
      · simp [checkSelectLists, checkValueCount_eq_ok_iff.mpr hcount, ih, hcount]
      · simp [checkSelectLists, checkValueCount_of_ne hcount, hcount]
    · have hne : ∀ items, k ≠ .select items := by simpa using hk
      simp [checkSelectLists_cons hne, ih, (hne _).symm]

theorem checkSelectLists_of_ne {ks : List NodeKind} (hks : Clauses.AreDistinct ks)
    {items : List Expr} (hmem : .select items ∈ ks)
    (hne : target.columns.length ≠ items.length) :
    checkSelectLists target ks = .error (mismatch target items) := by
  induction ks with
  | nil => cases hmem
  | cons k ks ih =>
    obtain ⟨hfirst, hrest⟩ := List.pairwise_cons.mp hks
    rcases List.mem_cons.mp hmem with rfl | hlater
    · simp [checkSelectLists, checkValueCount_of_ne hne]
    · have hk : ∀ others, k ≠ .select others := by
        rintro others rfl
        exact absurd (hfirst _ hlater rfl) (by simp [NodeKind.sort])
      rw [checkSelectLists_cons hk]
      exact ih hrest hlater

theorem mem_of_ofKinds (table : Table) {ks : List NodeKind} {c : Clauses}
    (h : Clauses.ofKinds ks = .ok c) {items : List Expr} (hselect : c.select = some items) :
    .select items ∈ ks := by
  have hmem : .select items ∈ c.kinds table := by simp [Clauses.kinds, hselect]
  refine (Clauses.mem_kinds_of_addAll h hmem).resolve_left ?_
  simp [Clauses.kinds, Clauses.empty]

/-- In a forest an insert has one source of values. -/
theorem IsForest.eq_of_mem_insert (h : a.IsForest) (hid : a.kind? id = some (.insert target))
    {c d : NodeId} (hc : c ∈ a.childrenOf id) (hd : d ∈ a.childrenOf id) : c = d := by
  have hslot : ∀ {c}, c ∈ a.childrenOf id → ∃ k, a.kind? c = some k ∧
      NodeSort.insert.slot? k.sort = some .valueSource := by
    intro c hc
    have hbelow := h.mem_childrenOf_iff.mp hc
    obtain ⟨k, hk⟩ := Option.isSome_iff_exists.mp
      (isSome_kind?_iff.mpr (lt_size_of_parent? hbelow))
    have haccepted := h.accepted hbelow hid hk
    refine ⟨k, hk, ?_⟩
    rw [NodeKind.sort] at haccepted
    revert haccepted
    cases k.sort <;> simp [NodeSort.accepts, NodeSort.slot?]
  obtain ⟨kc, hkc, hcslot⟩ := hslot hc
  obtain ⟨kd, hkd, hdslot⟩ := hslot hd
  exact h.slots hid (h.mem_childrenOf_iff.mp hc) hkc hcslot (h.mem_childrenOf_iff.mp hd) hkd hdslot

theorem IsForest.childrenOf_insert (h : a.IsForest) (hid : a.kind? id = some (.insert target))
    {first : NodeId} {rest : List NodeId} (hchildren : a.childrenOf id = first :: rest) :
    a.childrenOf id = [first] := by
  have hnodup := h.nodup_childrenOf id
  rw [hchildren] at hnodup ⊢
  cases rest with
  | nil => rfl
  | cons second rest =>
    have heq := h.eq_of_mem_insert hid (c := first) (d := second) (by simp [hchildren])
      (by simp [hchildren])
    simp [heq] at hnodup

/-- The source of an insert yields as many values as there are columns, unless it is not counted. -/
theorem insertSource_opens {source : Node} {ps : List Piece}
    (hchild : a.node? child = some source)
    (hvalues : ∀ items, source.kind = .values items → target.columns.length = items.length)
    (h : a.insertSource target child source = .ok ps) :
    ∃ y, a.yield child = .ok y ∧ (∃ depth, Query.Opens (a.surroundings depth).context y ps) ∧
      ∀ n, y = .listed n → n = target.columns.length := by
  have hyield : a.yield child = (do
      match source.kind with
      | .values items => return .listed items.length
      | .source table => return (← Clauses.ofKinds (a.kinds source.children)).yield table
      | kind => .error (notA kind.sort "query")) := by
    rw [yield, node_eq_ok_iff.mpr hchild]
    rfl
  unfold insertSource at h
  split at h
  next _ items hk =>
    rw [hyield, hk]
    refine ⟨_, rfl, ⟨a.size + 1, Query.opens_of_insertValues h⟩, fun n hn => ?_⟩
    cases hn
    exact (hvalues items hk).symm
  next table hk _ =>
    obtain ⟨_, hcheck, hquery⟩ := bind_eq_ok.mp h
    rw [queryPieces, selectPieces, node_eq_ok_iff.mpr hchild, ok_bind, hk] at hquery
    obtain ⟨c, hc, hselect⟩ := bind_eq_ok.mp hquery
    refine ⟨c.yield table, ?_, ⟨a.size, Query.opens_of_select hselect⟩, fun n hn => ?_⟩
    · rw [hyield, hk, hc]
      rfl
    · unfold Clauses.yield at hn
      split at hn
      next e rest hitems =>
        cases hn
        exact (checkSelectLists_eq_ok_iff.mp hcheck _ (mem_of_ofKinds table hc hitems)).symm
      next => cases hn
  next => cases h
  next => cases h

theorem pieces_of_insert (hid : a.kind? id = some (.insert target))
    (howner : a.ownerOf id = .ok ownerId) :
    a.pieces id = a.insertPieces target (a.childrenOf id) := by
  obtain ⟨n, hn, hk⟩ := Option.map_eq_some_iff.mp hid
  simp only [pieces, howner, ok_bind, node_eq_ok_iff.mpr hn, hk, childrenOf_of_node? hn]

theorem insertPieces_of_node? {source : Node} (hchild : a.node? child = some source)
    (rest : List NodeId) : a.insertPieces target (child :: rest) =
      (a.insertSource target child source).map (Query.insertHead target ++ ·) := by
  simp only [insertPieces, node_eq_ok_iff.mpr hchild, ok_bind]
  cases a.insertSource target child source <;> rfl

theorem IsForest.exists_of_pieces_insert (h : a.IsForest) (hid : a.kind? id = some (.insert target))
    {written : List Piece} (hwritten : a.pieces id = .ok written) :
    ∃ child source ps, a.childrenOf id = [child] ∧ a.node? child = some source ∧
      a.insertSource target child source = .ok ps ∧ written = Query.insertHead target ++ ps := by
  rcases ownerOf_cases a id with howner | hdetached
  swap
  · rw [pieces, hdetached] at hwritten
    cases hwritten
  rw [pieces_of_insert hid howner] at hwritten
  cases hchildren : a.childrenOf id with
  | nil =>
    rw [hchildren] at hwritten
    cases hwritten
  | cons child rest =>
    obtain rfl : rest = [] := by
      simpa [hchildren] using h.childrenOf_insert hid hchildren
    rw [hchildren] at hwritten
    have hbelow : a.HangsBelow child id := h.mem_childrenOf_iff.mp (by simp [hchildren])
    obtain ⟨source, hsource⟩ := Option.isSome_iff_exists.mp
      (isSome_node?_iff.mpr (lt_size_of_parent? hbelow))
    rw [insertPieces_of_node? hsource] at hwritten
    obtain ⟨ps, hps, rfl⟩ := map_eq_ok.mp hwritten
    exact ⟨child, source, ps, rfl, hsource, hps, rfl⟩

theorem IsForest.built_insert (h : a.IsForest) (hid : a.kind? id = some (.insert target))
    {command : Command} (hbuild : a.build id = .ok command) :
    ∃ child y ps, a.childrenOf id = [child] ∧ a.yield child = .ok y ∧
      a.pieces id = .ok (Query.insertHead target ++ ps) ∧
      (∃ depth, Query.Opens (a.surroundings depth).context y ps) ∧
      ∀ n, y = .listed n → n = target.columns.length := by
  obtain ⟨written, hpieces, -⟩ := bind_eq_ok.mp hbuild
  obtain ⟨child, source, ps, hchildren, hsource, hps, rfl⟩ := h.exists_of_pieces_insert hid hpieces
  have hbelow : a.HangsBelow child id := h.mem_childrenOf_iff.mp (by simp [hchildren])
  obtain ⟨y, hy, hopens, hlisted⟩ := insertSource_opens hsource
    (fun items hitems => h.values hbelow hid (hitems ▸ kind?_of_node? hsource)) hps
  exact ⟨child, y, ps, hchildren, hy, hpieces, hopens, hlisted⟩

/-- A list of values is counted before anything else of its place. -/
theorem checkPlace_values_of_ne (hid : a.kind? id = some (.insert target)) {items : List Expr}
    (hne : target.columns.length ≠ items.length) (except : Option NodeId) :
    a.checkPlace id (.values items) except = .error (mismatch target items) := by
  obtain ⟨n, hn, hk⟩ := Option.map_eq_some_iff.mp hid
  simp [checkPlace, node_eq_ok_iff.mpr hn, hk, NodeKind.sort, NodeSort.accepts, checkCount,
    checkValueCount_of_ne hne]

theorem attach_values_of_ne (hid : a.kind? id = some (.insert target)) {items : List Expr}
    (hchild : a.kind? child = some (.values items))
    (hne : target.columns.length ≠ items.length) :
    a.attach id child = (.error (mismatch target items), a) := by
  obtain ⟨n, hn, hk⟩ := Option.map_eq_some_iff.mp hchild
  simp [attach, checkAttach, node_eq_ok_iff.mpr hn, hk, checkPlace_values_of_ne hid hne]

theorem createBelow_values_of_ne (hid : a.kind? id = some (.insert target)) {items : List Expr}
    (hne : target.columns.length ≠ items.length) :
    a.createBelow id (.values items) = (.error (mismatch target items), a) := by
  simp [createBelow, checkPlace_values_of_ne hid hne]

theorem build_of_pieces_eq_error {e : ConstructionError} (h : a.pieces id = .error e) :
    a.build id = .error e := by
  rw [build, h]
  rfl

section Source

variable {table : Table} (hid : a.kind? id = some (.insert target))
  (howner : a.ownerOf id = .ok ownerId) (hchildren : a.childrenOf id = [child])
  (hchild : a.kind? child = some (.source table))

include hid howner hchildren hchild

theorem pieces_of_insert_source (hguard : target.guard = none) :
    a.pieces id = (do
      checkSelectLists target (a.kinds (a.childrenOf child))
      a.queryPieces child).map (Query.insertHead target ++ ·) := by
  obtain ⟨n, hn, hk⟩ := Option.map_eq_some_iff.mp hchild
  rw [pieces_of_insert hid howner, hchildren, insertPieces_of_node? hn, insertSource, hk, hguard,
    childrenOf_of_node? hn]

/-- A select list is counted when the insert is written. -/
theorem IsForest.build_select_of_ne (h : a.IsForest) (hguard : target.guard = none)
    {items : List Expr} (hitems : .select items ∈ a.kinds (a.childrenOf child))
    (hne : target.columns.length ≠ items.length) :
    a.build id = .error (mismatch target items) := by
  apply build_of_pieces_eq_error
  rw [pieces_of_insert_source hid howner hchildren hchild hguard,
    checkSelectLists_of_ne (h.areDistinct_kinds hchild) hitems hne]
  rfl

theorem pieces_of_unlisted (hguard : target.guard = none)
    (hitems : ∀ items, .select items ∉ a.kinds (a.childrenOf child)) :
    a.pieces id = (a.queryPieces child).map (Query.insertHead target ++ ·) := by
  rw [pieces_of_insert_source hid howner hchildren hchild hguard,
    checkSelectLists_eq_ok_iff.mpr fun items hmem => absurd hmem (hitems items)]
  rfl

theorem build_guarded_source {condition : Expr} (hguard : target.guard = some condition) :
    a.build id = .error (.unsupportedExpression "insert guard requires a value list") := by
  obtain ⟨n, hn, hk⟩ := Option.map_eq_some_iff.mp hchild
  apply build_of_pieces_eq_error
  rw [pieces_of_insert hid howner, hchildren, insertPieces_of_node? hn, insertSource, hk, hguard]
  rfl

end Source

/-- How the values of an insert are counted. -/
structure CountsValues (a : Arena) (id : NodeId) (target : InsertTarget) : Prop where
  /-- What is built names the columns and then writes the one source, which yields another number
  of values only if they are what `*` stands for. -/
  accepted : ∀ command, a.build id = .ok command → ∃ child y ps, a.childrenOf id = [child] ∧
    a.yield child = .ok y ∧ a.pieces id = .ok (Query.insertHead target ++ ps) ∧
    (∃ depth, Query.Opens (a.surroundings depth).context y ps) ∧
    (y.count ≠ target.columns.length ↔ ∃ n, y = .all n ∧ n ≠ target.columns.length)
  attached : ∀ child items, a.kind? child = some (.values items) →
    target.columns.length ≠ items.length →
    a.attach id child = (.error (mismatch target items), a)
  created : ∀ items, target.columns.length ≠ items.length →
    a.createBelow id (.values items) = (.error (mismatch target items), a)
  /-- An empty select list counts as none, though it is written as `*`. -/
  selected : ∀ child table items, a.ownerOf id = .ok ownerId → a.childrenOf id = [child] →
    a.kind? child = some (.source table) → target.guard = none →
    .select items ∈ a.kinds (a.childrenOf child) → target.columns.length ≠ items.length →
    a.build id = .error (mismatch target items)
  /-- Without a select list the insert is written whenever the query is. -/
  unlisted : ∀ child table, a.ownerOf id = .ok ownerId → a.childrenOf id = [child] →
    a.kind? child = some (.source table) → target.guard = none →
    (∀ items, .select items ∉ a.kinds (a.childrenOf child)) →
    a.pieces id = (a.queryPieces child).map (Query.insertHead target ++ ·)
  guarded : ∀ child table condition, a.ownerOf id = .ok ownerId → a.childrenOf id = [child] →
    a.kind? child = some (.source table) → target.guard = some condition →
    a.build id = .error (.unsupportedExpression "insert guard requires a value list")

theorem IsForest.countsValues (h : a.IsForest) (hid : a.kind? id = some (.insert target)) :
    a.CountsValues id target where
  accepted := by
    intro command hbuild
    obtain ⟨child, y, ps, hchildren, hy, hps, hopens, hlisted⟩ := h.built_insert hid hbuild
    refine ⟨child, y, ps, hchildren, hy, hps, hopens, ?_⟩
    cases y with
    | listed n => simp [Yield.count, hlisted n rfl]
    | all n => simp [Yield.count]
  attached _ _ hchild hne := attach_values_of_ne hid hchild hne
  created _ hne := createBelow_values_of_ne hid hne
  selected _ _ _ howner hchildren hchild hguard hitems hne :=
    h.build_select_of_ne hid howner hchildren hchild hguard hitems hne
  unlisted _ _ howner hchildren hchild hguard hitems :=
    pieces_of_unlisted hid howner hchildren hchild hguard hitems
  guarded _ _ _ howner hchildren hchild hguard :=
    build_guarded_source hid howner hchildren hchild hguard

/-- In whatever order nodes were made, moved and replaced, an insert that is built yields as many
values as it names columns, unless it takes all columns of a query, which are never counted. Other
lists are refused for their number. -/
theorem insert_countsValues (operations : List Operation) {id : NodeId} {target : InsertTarget}
    (hid : (empty.run operations).kind? id = some (.insert target)) :
    (empty.run operations).CountsValues id target :=
  (empty_isForest.run operations).countsValues hid

namespace Users

/-- A table of two columns. -/
def pairs : Table :=
  .ofColumns ⟨2⟩ "pairs" [⟨⟨"left", .scalar .int64, .empty⟩, "Left", ⟨2⟩, "pairs"⟩,
    ⟨⟨"right", .scalar .int64, .empty⟩, "Right", ⟨2⟩, "pairs"⟩]

/-- The one column of users. -/
def idOnly : InsertTarget := ⟨table, table.columns, none⟩

/-- Users are taken from a query over a table. -/
def copy (t : Table) : Arena := empty.run [.source t, .insert idOnly, .attach 2 1]

/-- A table of as many columns. -/
theorem copy_countsValues : (copy table).CountsValues 2 idOnly ∧
    ∃ command, (copy table).build 2 = .ok command :=
  ⟨insert_countsValues _ rfl, _, rfl⟩

/-- Two values for one column. -/
theorem copy_yields_two : ∃ c, (copy pairs).build 2 = .ok (.immediate c) ∧
    c.text = "INSERT INTO users(id) SELECT * FROM pairs t0;" ∧
    (copy pairs).kind? 2 = some (.insert idOnly) ∧ (copy pairs).childrenOf 2 = [1] ∧
    ∃ y, (copy pairs).yield 1 = .ok y ∧ y.count ≠ idOnly.columns.length :=
  ⟨_, rfl, by decide +kernel, rfl, rfl, _, rfl, by decide⟩

end Users

end Arena

end DeclarativeSql
