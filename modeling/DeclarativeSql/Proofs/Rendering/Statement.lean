import DeclarativeSql.Proofs.Rendering.Part

/-!
# Parts of statements

The parts of queries and inserts. A statement is written as its parts are, with subqueries inside
each other up to some depth.
-/
namespace DeclarativeSql

variable {s : Surroundings}

namespace Query

def exprsParts (es : List Expr) : List Part := Part.separated (es.map Expr.parts)

def selectItemParts (item : Expr × Nat) : List Part :=
  item.1.parts ++ [Part.text "AS", .text (itemName item.2)]

def selectHeadParts : Option (List Expr) → List Part
  | some (e :: rest) =>
    .text "SELECT" :: Part.separated ((e :: rest).zipIdx.map selectItemParts) ++ [.text "FROM"]
  | _ => [.text "SELECT * FROM"]

def optionalParts {α : Type} (keyword : String) (parts : α → List Part) : Option α → List Part
  | some x => .text keyword :: parts x
  | none => []

def joinParts (j : JoinKind × Table × Expr) : List Part :=
  .text (joinText j.1) :: .table j.2.1 :: .text "ON" :: j.2.2.parts

def orderItemParts (item : OrderItem) : List Part :=
  item.expr.parts ++ [Part.text (if item.isDescending then "DESC" else "ASC")]

def orderItemsParts (items : List OrderItem) : List Part :=
  Part.separated (items.map orderItemParts)

def selectParts (table : Table) (c : Clauses) : List Part :=
  selectHeadParts c.select ++ [Part.table table] ++ (c.joins.map joinParts).flatten ++
    optionalParts "WHERE" Expr.parts c.filter ++ optionalParts "GROUP BY" exprsParts c.groupBy ++
    optionalParts "ORDER BY" orderItemsParts c.orderBy ++ optionalParts "LIMIT" Expr.parts c.limit

def insertHeadParts (target : InsertTarget) : List Part :=
  [Part.text "INSERT INTO", .text target.table.name, .text "("] ++
    Part.separated (target.columns.map fun c => [.text c.name]) ++ [Part.text ")"]

def insertGuardParts (target : InsertTarget) : Option Expr → List Part
  | some condition =>
    [.text "WHERE NOT EXISTS(SELECT * FROM", .table target.table, .text "WHERE"] ++
      condition.parts ++ [.text ")"]
  | none => []

def insertValuesParts (target : InsertTarget) (items : List Expr) : List Part :=
  .text "SELECT" :: exprsParts items ++ insertGuardParts target target.guard

section Forall

variable {P : Part → Prop} (htext : ∀ token, P (.text token)) (htable : ∀ t, P (.table t))
  (hexpr : ∀ e : Expr, ∀ p ∈ e.parts, P p)

include htext hexpr

theorem forall_mem_exprsParts (es : List Expr) : ∀ p ∈ exprsParts es, P p := by
  rw [exprsParts, Expr.forall_mem_separated (htext ","), List.forall_mem_map]
  exact fun e _ => hexpr e

theorem forall_mem_selectHeadParts (select : Option (List Expr)) :
    ∀ p ∈ selectHeadParts select, P p := by
  match select with
  | none | some [] => simp [selectHeadParts, htext]
  | some (e :: rest) =>
    have hitems : ∀ p ∈ Part.separated ((e :: rest).zipIdx.map selectItemParts), P p := by
      rw [Expr.forall_mem_separated (htext ","), List.forall_mem_map]
      intro item _
      simpa [selectItemParts, or_imp, forall_and, htext] using hexpr item.1
    rw [selectHeadParts, List.cons_append, List.forall_mem_cons, List.forall_mem_append]
    exact ⟨htext _, hitems, by simp [htext]⟩

theorem forall_mem_orderItemsParts (items : List OrderItem) :
    ∀ p ∈ orderItemsParts items, P p := by
  rw [orderItemsParts, Expr.forall_mem_separated (htext ","), List.forall_mem_map]
  intro item _
  simpa [orderItemParts, or_imp, forall_and, htext] using hexpr item.expr

omit hexpr in
theorem forall_mem_optionalParts {α : Type} (keyword : String) {parts : α → List Part}
    (h : ∀ x, ∀ p ∈ parts x, P p) (x : Option α) : ∀ p ∈ optionalParts keyword parts x, P p := by
  cases x with
  | none => simp [optionalParts]
  | some x => simpa [optionalParts, htext] using h x

omit hexpr in
theorem forall_mem_insertHeadParts (target : InsertTarget) :
    ∀ p ∈ insertHeadParts target, P p := by
  have hcolumns : ∀ p ∈ Part.separated (target.columns.map fun c => [.text c.name]), P p := by
    rw [Expr.forall_mem_separated (htext ","), List.forall_mem_map]
    simp [htext]
  rw [insertHeadParts, List.forall_mem_append, List.forall_mem_append]
  exact ⟨⟨by simp [htext], hcolumns⟩, by simp [htext]⟩

include htable

/-- What holds of texts, of tables and of expressions holds of queries. -/
theorem forall_mem_selectParts (table : Table) (c : Clauses) :
    ∀ p ∈ selectParts table c, P p := by
  have hjoins : ∀ p ∈ (c.joins.map joinParts).flatten, P p := by
    rw [List.forall_mem_flatten, List.forall_mem_map]
    intro j _
    simpa [joinParts, htext, htable] using hexpr j.2.2
  simp only [selectParts, List.forall_mem_append]
  exact ⟨⟨⟨⟨⟨⟨forall_mem_selectHeadParts htext hexpr c.select, by simp [htable]⟩, hjoins⟩,
    forall_mem_optionalParts htext _ hexpr _⟩,
    forall_mem_optionalParts htext _ (forall_mem_exprsParts htext hexpr) _⟩,
    forall_mem_optionalParts htext _ (forall_mem_orderItemsParts htext hexpr) _⟩,
    forall_mem_optionalParts htext _ hexpr _⟩

theorem forall_mem_insertValuesParts (target : InsertTarget) (items : List Expr) :
    ∀ p ∈ insertValuesParts target items, P p := by
  have hguard : ∀ p ∈ insertGuardParts target target.guard, P p := by
    cases target.guard with
    | none => simp [insertGuardParts]
    | some condition =>
      simpa [insertGuardParts, or_imp, forall_and, htext, htable] using hexpr condition
  rw [insertValuesParts, List.cons_append, List.forall_mem_cons, List.forall_mem_append]
  exact ⟨htext _, forall_mem_exprsParts htext hexpr items, hguard⟩

end Forall

theorem exprs_eq (es : List Expr) : exprs s.context es = Part.piecesOf s (exprsParts es) := by
  have hmap : es.mapM (Expr.pieces s.context) = (es.map Expr.parts).mapM (Part.piecesOf s) := by
    rw [List.mapM_map]
    exact mapM_congr fun e _ => Expr.pieces_eq_piecesOf_parts e
  rw [exprs, exprsParts, Part.piecesOf_separated, hmap]
  cases (es.map Expr.parts).mapM (Part.piecesOf s) <;> rfl

theorem selectItem_eq (item : Expr × Nat) :
    selectItem s.context item = Part.piecesOf s (selectItemParts item) := by
  rw [selectItem, selectItemParts, Part.piecesOf_append, Expr.pieces_eq_piecesOf_parts]
  rfl

theorem selectHead_eq (select : Option (List Expr)) :
    selectHead s.context select = Part.piecesOf s (selectHeadParts select) := by
  match select with
  | none | some [] => rfl
  | some (e :: rest) =>
    have hmap : (e :: rest).zipIdx.mapM (selectItem s.context) =
        ((e :: rest).zipIdx.map selectItemParts).mapM (Part.piecesOf s) := by
      rw [List.mapM_map]
      exact mapM_congr fun item _ => selectItem_eq item
    simp only [selectHead, selectHeadParts]
    rw [List.cons_append, Part.piecesOf_text_cons, Part.piecesOf_append_text,
      Part.piecesOf_separated, hmap]
    cases ((e :: rest).zipIdx.map selectItemParts).mapM (Part.piecesOf s) <;> rfl

theorem optional_eq {α : Type} (keyword : String) {pieces : α → Pieces} {parts : α → List Part}
    (h : ∀ x, pieces x = Part.piecesOf s (parts x)) (x : Option α) :
    optional keyword pieces x = Part.piecesOf s (optionalParts keyword parts x) := by
  cases x with
  | none => rfl
  | some x =>
    rw [optional, optionalParts, Part.piecesOf_text_cons, h]
    cases Part.piecesOf s (parts x) <;> rfl

theorem join_eq (j : JoinKind × Table × Expr) :
    join s.context s.introduce j = Part.piecesOf s (joinParts j) := by
  rw [join, joinParts, Part.piecesOf_text_cons, Part.piecesOf, Part.piecesOf_text_cons,
    Expr.pieces_eq_piecesOf_parts]
  cases hi : s.introduce j.2.1 <;> cases Part.piecesOf s j.2.2.parts <;>
    simp [Part.pieces, hi, bind, Except.bind, pure, Except.pure, Except.map]

theorem orderItem_eq (item : OrderItem) :
    orderItem s.context item = Part.piecesOf s (orderItemParts item) := by
  rw [orderItem, orderItemParts, Part.piecesOf_append_text, Expr.pieces_eq_piecesOf_parts]
  cases Part.piecesOf s item.expr.parts <;> rfl

theorem orderItems_eq (items : List OrderItem) :
    orderItems s.context items = Part.piecesOf s (orderItemsParts items) := by
  have hmap : items.mapM (orderItem s.context) =
      (items.map orderItemParts).mapM (Part.piecesOf s) := by
    rw [List.mapM_map]
    exact mapM_congr fun item _ => orderItem_eq item
  rw [orderItems, orderItemsParts, Part.piecesOf_separated, hmap]
  cases (items.map orderItemParts).mapM (Part.piecesOf s) <;> rfl

theorem piecesOf_flatten (pss : List (List Part)) :
    Part.piecesOf s pss.flatten = (pss.mapM (Part.piecesOf s)).map List.flatten := by
  induction pss with
  | nil => rfl
  | cons ps pss ih =>
    rw [List.flatten_cons, Part.piecesOf_append, ih, List.mapM_cons]
    cases Part.piecesOf s ps with
    | error e => rfl
    | ok qs => cases pss.mapM (Part.piecesOf s) <;> rfl

theorem select_eq (table : Table) (c : Clauses) :
    select s.context s.introduce table c = Part.piecesOf s (selectParts table c) := by
  have hjoins : c.joins.mapM (join s.context s.introduce) =
      (c.joins.map joinParts).mapM (Part.piecesOf s) := by
    rw [List.mapM_map]
    exact mapM_congr fun j _ => join_eq j
  have htable : Part.piecesOf s [.table table] = s.introduce table := by
    simp only [Part.piecesOf, Part.pieces]
    cases s.introduce table <;> simp [bind, Except.bind, pure, Except.pure]
  rw [select, selectHead_eq, hjoins, optional_eq "WHERE" Expr.pieces_eq_piecesOf_parts,
    optional_eq "GROUP BY" exprs_eq, optional_eq "ORDER BY" orderItems_eq,
    optional_eq "LIMIT" Expr.pieces_eq_piecesOf_parts]
  simp only [selectParts, Part.piecesOf_append, piecesOf_flatten, htable, bind_assoc, pure_bind]
  cases (c.joins.map joinParts).mapM (Part.piecesOf s) <;> rfl

theorem insertHead_eq (target : InsertTarget) :
    Part.piecesOf s (insertHeadParts target) = .ok (insertHead target) := by
  have hcolumns : (target.columns.map fun c => [Part.text c.name]).mapM (Part.piecesOf s) =
      .ok (target.columns.map fun c => [Piece.text c.name]) := by
    induction target.columns with
    | nil => rfl
    | cons c cs ih =>
      rw [List.map_cons, List.mapM_cons, ih]
      rfl
  rw [insertHeadParts, insertHead, Part.piecesOf_append_text, Part.piecesOf_append,
    Part.piecesOf_separated, hcolumns]
  rfl

theorem insertGuard_eq (target : InsertTarget) (guard : Option Expr) :
    insertGuard s.context s.introduce target guard =
      Part.piecesOf s (insertGuardParts target guard) := by
  cases guard with
  | none => rfl
  | some condition =>
    have hparts : insertGuardParts target (some condition) =
        .text "WHERE NOT EXISTS(SELECT * FROM" :: .table target.table :: .text "WHERE" ::
          (condition.parts ++ [Part.text ")"]) := rfl
    rw [insertGuard, hparts, Part.piecesOf_text_cons, Part.piecesOf, Part.piecesOf_text_cons,
      Part.piecesOf_append_text, Expr.pieces_eq_piecesOf_parts]
    cases hi : s.introduce target.table <;> cases Part.piecesOf s condition.parts <;>
      simp [Part.pieces, hi, bind, Except.bind, pure, Except.pure, Except.map]

theorem insertValues_eq (target : InsertTarget) (items : List Expr) :
    insertValues s.context s.introduce target items =
      Part.piecesOf s (insertValuesParts target items) := by
  rw [insertValues, insertValuesParts, List.cons_append, Part.piecesOf_text_cons,
    Part.piecesOf_append, exprs_eq, insertGuard_eq]
  cases Part.piecesOf s (exprsParts items) with
  | error e => rfl
  | ok => cases Part.piecesOf s (insertGuardParts target target.guard) <;> rfl

end Query

namespace Arena

variable (a : Arena)

/-- The query around the parts of a statement, with subqueries at most `depth` deep. -/
def surroundings (depth : Nat) : Surroundings where
  context :=
    { columnReference := a.columnReference
      subquery := fun id => do
        let _ ← a.ownerOf id
        a.selectPieces depth id }
  introduce := a.introduce

/-- The parts of the query of a source. -/
def sourceParts (id : NodeId) : List Part :=
  match a.node? id with
  | none => [.refusal (.detachedNode id)]
  | some n =>
    match n.kind with
    | .source table =>
      match Clauses.ofKinds (a.kinds n.children) with
      | .error e => [.refusal e]
      | .ok clauses => Query.selectParts table clauses
    | kind => [.refusal (notA kind.sort "query")]

def insertSourceParts (target : InsertTarget) (id : NodeId) (source : Node) : List Part :=
  match source.kind, target.guard with
  | .values items, _ => Query.insertHeadParts target ++ Query.insertValuesParts target items
  | .source _, none =>
    match checkSelectLists target (a.kinds source.children) with
    | .error e => [.refusal e]
    | .ok () => Query.insertHeadParts target ++ a.sourceParts id
  | .source _, some _ => [.refusal (.unsupportedExpression "insert guard requires a value list")]
  | other, _ => [.refusal (.invalidChild other.sort .insert)]

def insertParts (target : InsertTarget) (children : List NodeId) : List Part :=
  match children with
  | [] => [.refusal (.unsupportedExpression "insert without a value source")]
  | id :: _ =>
    match a.node? id with
    | none => [.refusal (.detachedNode id)]
    | some source => a.insertSourceParts target id source

/-- The parts of the statement at a node. -/
def statementParts (id : NodeId) : List Part :=
  match a.ownerOf id with
  | .error e => [.refusal e]
  | .ok _ =>
    match a.node? id with
    | none => [.refusal (.detachedNode id)]
    | some n =>
      match n.kind with
      | .source _ => a.sourceParts id
      | .insert target => a.insertParts target n.children
      | kind => [.refusal (notA kind.sort "statement")]

/-- A list of values is no query itself, so the subqueries in it may be one deeper. -/
def insertDepth (source : Node) : Nat :=
  match source.kind with
  | .values _ => a.size + 1
  | _ => a.size

def statementDepth (id : NodeId) : Nat :=
  match a.node? id with
  | none => a.size
  | some n =>
    match n.kind, n.children with
    | .insert _, child :: _ => (a.node? child).elim a.size a.insertDepth
    | _, _ => a.size

variable {a}

theorem node_eq (id : NodeId) :
    a.node id = (a.node? id).elim (.error (.detachedNode id)) .ok := by
  unfold node
  cases a.node? id <;> rfl

theorem selectPieces_succ (depth : Nat) (id : NodeId) :
    a.selectPieces (depth + 1) id = Part.piecesOf (a.surroundings depth) (a.sourceParts id) := by
  rw [selectPieces, sourceParts, node_eq]
  cases a.node? id with
  | none => rfl
  | some n =>
    simp only [Option.elim_some]
    cases hk : n.kind with
    | source table =>
      simp only [bind, Except.bind, hk]
      cases Clauses.ofKinds (a.kinds n.children) with
      | error e => rfl
      | ok clauses => exact Query.select_eq (s := a.surroundings depth) table clauses
    | _ => simp only [bind, Except.bind, hk]; rfl

theorem piecesOf_insertHeadParts_append {s : Surroundings} (target : InsertTarget)
    (ps : List Part) : Part.piecesOf s (Query.insertHeadParts target ++ ps) =
      (Part.piecesOf s ps).map (Query.insertHead target ++ ·) := by
  rw [Part.piecesOf_append, Query.insertHead_eq]
  cases Part.piecesOf s ps <;> rfl

theorem insertSource_eq (target : InsertTarget) (id : NodeId) (source : Node) :
    (a.insertSource target id source).map (Query.insertHead target ++ ·) =
      Part.piecesOf (a.surroundings (a.insertDepth source))
        (a.insertSourceParts target id source) := by
  unfold insertSource insertSourceParts insertDepth
  cases hk : source.kind with
  | values items =>
    simp only [piecesOf_insertHeadParts_append, ← Query.insertValues_eq]
    rfl
  | source table =>
    cases target.guard with
    | some condition => rfl
    | none =>
      simp only
      cases checkSelectLists target (a.kinds source.children) with
      | error e => rfl
      | ok =>
        simp only [piecesOf_insertHeadParts_append, ← selectPieces_succ]
        rfl
  | _ => rfl

theorem insertPieces_eq (target : InsertTarget) (children : List NodeId) :
    a.insertPieces target children =
      Part.piecesOf (a.surroundings ((children.head?.bind a.node?).elim a.size a.insertDepth))
        (a.insertParts target children) := by
  cases children with
  | nil => rfl
  | cons id rest =>
    simp only [insertPieces, insertParts, node_eq, List.head?_cons, Option.bind_some]
    cases a.node? id with
    | none => rfl
    | some source =>
      simp only [Option.elim_some, ← insertSource_eq, bind, Except.bind]
      cases a.insertSource target id source <;> rfl

theorem pieces_eq (id : NodeId) :
    a.pieces id = Part.piecesOf (a.surroundings (a.statementDepth id)) (a.statementParts id) := by
  unfold pieces statementParts statementDepth
  cases a.ownerOf id with
  | error e => rfl
  | ok owner =>
    simp only [node_eq, bind, Except.bind]
    cases a.node? id with
    | none => rfl
    | some n =>
      simp only [Option.elim_some]
      cases hk : n.kind with
      | source table => exact selectPieces_succ a.size id
      | insert target =>
        simp only [insertPieces_eq]
        cases n.children <;> rfl
      | _ => rfl

end Arena

end DeclarativeSql
