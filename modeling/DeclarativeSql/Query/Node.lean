import DeclarativeSql.Expr.Basic
import DeclarativeSql.Query.NodeSort
import DeclarativeSql.Schema.Table

/-!
# Query nodes

Statements, clauses and value lists, each with the expressions and tables it mentions.
-/
namespace DeclarativeSql

inductive JoinKind
  | inner
  | left
  deriving DecidableEq

structure OrderItem where
  expr : Expr
  isDescending : Bool

/-- What an insert writes to. A guard keeps it from running if some row satisfies it. -/
structure InsertTarget where
  table : Table
  columns : List Column
  guard : Option Expr

inductive NodeKind
  /-- The root of the tree. -/
  | owner
  | source (table : Table)
  | join (kind : JoinKind) (table : Table) (on : Expr)
  | filter (condition : Expr)
  | groupBy (keys : List Expr)
  | orderBy (items : List OrderItem)
  | limit (count : Expr)
  | select (items : List Expr)
  | values (items : List Expr)
  | insert (target : InsertTarget)

namespace NodeKind

def sort : NodeKind → NodeSort
  | owner => .owner
  | source _ => .source
  | join .. => .join
  | filter _ => .filter
  | groupBy _ => .groupBy
  | orderBy _ => .orderBy
  | limit _ => .limit
  | select _ => .select
  | values _ => .values
  | insert _ => .insert

/-- The table that the node brings into the query. -/
def table? : NodeKind → Option Table
  | source t => some t
  | join _ t _ => some t
  | insert target => some target.table
  | _ => none

def expressions : NodeKind → List Expr
  | join _ _ on => [on]
  | filter e => [e]
  | limit e => [e]
  | groupBy es => es
  | select es => es
  | values es => es
  | orderBy items => items.map (·.expr)
  | insert target => target.guard.toList
  | owner => []
  | source _ => []

/-- The nodes that the expressions use as subqueries, in order. -/
def subqueries (k : NodeKind) : List NodeId := Expr.subqueriesOf k.expressions

/-- Fails unless a source yields one value for each column of the insert. -/
def checkValueCount (target : InsertTarget) (values : Nat) : Except ConstructionError Unit :=
  if target.columns.length = values then .ok ()
  else .error (.valueCountMismatch target.table.name target.columns.length values)

end NodeKind

structure Node where
  kind : NodeKind
  parent : Option NodeId
  children : List NodeId

end DeclarativeSql
