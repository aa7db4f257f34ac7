import DeclarativeSql.Query.Arena
import DeclarativeSql.Expr.Pieces

/-!
# Query trees as pieces

A source is written as a query, with its clauses in a fixed order, and an insert as an insert from a
list of values or from a query. Subqueries are written inside the expressions that use them.
-/
namespace DeclarativeSql

/-- The clauses below one source. -/
structure Clauses where
  joins : List (JoinKind × Table × Expr)
  filter : Option Expr
  groupBy : Option (List Expr)
  orderBy : Option (List OrderItem)
  limit : Option Expr
  select : Option (List Expr)

namespace Clauses

def empty : Clauses := ⟨[], none, none, none, none, none⟩

def add (c : Clauses) : NodeKind → Except ConstructionError Clauses
  | .join kind table on => .ok { c with joins := c.joins ++ [(kind, table, on)] }
  | .filter e => .ok { c with filter := some e }
  | .groupBy keys => .ok { c with groupBy := some keys }
  | .orderBy items => .ok { c with orderBy := some items }
  | .limit e => .ok { c with limit := some e }
  | .select items => .ok { c with select := some items }
  | other => .error (.invalidChild other.sort .source)

def addAll (c : Clauses) : List NodeKind → Except ConstructionError Clauses
  | [] => .ok c
  | k :: rest =>
    match c.add k with
    | .error e => .error e
    | .ok c => c.addAll rest

def ofKinds (kinds : List NodeKind) : Except ConstructionError Clauses := empty.addAll kinds

end Clauses

namespace Query

variable (ctx : ExprContext)

def exprs (es : List Expr) : Pieces := do
  return Piece.separated (← es.mapM (Expr.pieces ctx))

/-- The name of an item of a select list. -/
def itemName (i : Nat) : String := "c" ++ toString i

def selectItem (item : Expr × Nat) : Pieces := do
  return (← item.1.pieces ctx) ++ [Piece.text "AS", .text (itemName item.2)]

/-- An empty select list stands for all columns. -/
def selectHead : Option (List Expr) → Pieces
  | some (e :: rest) => do
    let items ← (e :: rest).zipIdx.mapM (selectItem ctx)
    return .text "SELECT" :: Piece.separated items ++ [.text "FROM"]
  | _ => .ok [.text "SELECT * FROM"]

def joinText : JoinKind → String
  | .inner => "JOIN"
  | .left => "LEFT JOIN"

def optional {α : Type} (keyword : String) (pieces : α → Pieces) : Option α → Pieces
  | some x => do return .text keyword :: (← pieces x)
  | none => .ok []

def join (introduce : Table → Pieces) (j : JoinKind × Table × Expr) : Pieces := do
  return .text (joinText j.1) :: (← introduce j.2.1) ++ .text "ON" :: (← j.2.2.pieces ctx)

def orderItem (item : OrderItem) : Pieces := do
  return (← item.expr.pieces ctx) ++ [Piece.text (if item.isDescending then "DESC" else "ASC")]

def orderItems (items : List OrderItem) : Pieces := do
  return Piece.separated (← items.mapM (orderItem ctx))

/-- A query, given the way a table is introduced. -/
def select (introduce : Table → Pieces) (table : Table) (c : Clauses) : Pieces := do
  let head ← selectHead ctx c.select
  let introduced ← introduce table
  let joins ← c.joins.mapM (join ctx introduce)
  let filter ← optional "WHERE" (Expr.pieces ctx) c.filter
  let groupBy ← optional "GROUP BY" (exprs ctx) c.groupBy
  let orderBy ← optional "ORDER BY" (orderItems ctx) c.orderBy
  let limit ← optional "LIMIT" (Expr.pieces ctx) c.limit
  return head ++ introduced ++ joins.flatten ++ filter ++ groupBy ++ orderBy ++ limit

def insertHead (target : InsertTarget) : List Piece :=
  [Piece.text "INSERT INTO", .text target.table.name, .text "("] ++
    Piece.separated (target.columns.map fun c => [.text c.name]) ++ [Piece.text ")"]

/-- A condition that holds a list of values back. -/
def insertGuard (introduce : Table → Pieces) (target : InsertTarget) : Option Expr → Pieces
  | some condition => do
    return .text "WHERE NOT EXISTS(SELECT * FROM" :: (← introduce target.table) ++
      .text "WHERE" :: (← condition.pieces ctx) ++ [.text ")"]
  | none => .ok []

def insertValues (introduce : Table → Pieces) (target : InsertTarget) (items : List Expr) :
    Pieces := do
  return .text "SELECT" :: (← exprs ctx items) ++ (← insertGuard ctx introduce target target.guard)

end Query

namespace Arena

variable (a : Arena)

def columnReference (c : Column) : Except ConstructionError String :=
  match a.alias? c.table with
  | some name => .ok (name ++ "." ++ c.name)
  | none => .error (.unregisteredTable c.tableName)

/-- A table's name and alias. -/
def introduce (t : Table) : Pieces :=
  match a.alias? t.id with
  | some name => .ok [.text t.name, .text name]
  | none => .error (.unregisteredTable t.name)

def notA (sort : NodeSort) (what : String) : ConstructionError :=
  .unsupportedExpression (sort.name ++ " is not a " ++ what)

/-- The query of a source, with subqueries inside each other at most `depth` deep. -/
def selectPieces : (depth : Nat) → NodeId → Pieces
  | 0, id => .error (.endlessSubquery id)
  | depth + 1, id => do
    let n ← a.node id
    match n.kind with
    | .source table =>
      let clauses ← Clauses.ofKinds (a.kinds n.children)
      let subquery (id : NodeId) : Pieces := do
        let _ ← a.ownerOf id
        selectPieces depth id
      Query.select ⟨a.columnReference, subquery⟩ a.introduce table clauses
    | kind => .error (notA kind.sort "query")

/-- Subqueries that are nested deeper than there are nodes contain themselves. -/
def queryPieces (id : NodeId) : Pieces := a.selectPieces (a.size + 1) id

def subqueryPieces (id : NodeId) : Pieces := do
  let _ ← a.ownerOf id
  a.queryPieces id

def context : ExprContext := ⟨a.columnReference, a.subqueryPieces⟩

/-- A select list below a source that is inserted yields as many values as the insert has
columns. -/
def checkSelectLists (target : InsertTarget) : List NodeKind → Except ConstructionError Unit
  | [] => .ok ()
  | .select items :: rest =>
    match NodeKind.checkValueCount target items.length with
    | .error e => .error e
    | .ok () => checkSelectLists target rest
  | _ :: rest => checkSelectLists target rest

/-- Where an insert takes its values from. -/
def insertSource (target : InsertTarget) (id : NodeId) (source : Node) : Pieces :=
  match source.kind, target.guard with
  | .values items, _ => Query.insertValues a.context a.introduce target items
  | .source _, none => do
    checkSelectLists target (a.kinds source.children)
    a.queryPieces id
  | .source _, some _ => .error (.unsupportedExpression "insert guard requires a value list")
  | other, _ => .error (.invalidChild other.sort .insert)

def insertPieces (target : InsertTarget) (children : List NodeId) : Pieces :=
  match children with
  | [] => .error (.unsupportedExpression "insert without a value source")
  | id :: _ => do
    return Query.insertHead target ++ (← a.insertSource target id (← a.node id))

/-- The statement at a node, which must be below the owner. -/
def pieces (id : NodeId) : Pieces := do
  let _ ← a.ownerOf id
  let n ← a.node id
  match n.kind with
  | .source _ => a.queryPieces id
  | .insert target => a.insertPieces target n.children
  | kind => .error (notA kind.sort "statement")

/-- The command of a statement, with its terminator. -/
def build (id : NodeId) : Except ConstructionError Command := do
  return .ofBuffer (← Piece.buffer ((← a.pieces id) ++ [Piece.text ";"]))

end Arena

end DeclarativeSql
