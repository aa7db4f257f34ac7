import DeclarativeSql.Code.Command
import DeclarativeSql.Expr.Operator
import DeclarativeSql.Schema.Column

/-!
# Expressions

Conditions and values of a query as trees. Subqueries are nodes of the same query tree; a command
that was built before can stand in their place.
-/
namespace DeclarativeSql

/-- The position of a node in a query tree. -/
abbrev NodeId := Nat

inductive Literal
  | null
  | source (source : ParameterSource)

/-- What can be called. Any other name is refused when the expression is written. -/
inductive CallName
  | like
  | exists_
  | notExists
  | count
  | coalesce
  | any
  | other (name : String)
  deriving DecidableEq

namespace CallName

def text : CallName → String
  | like => "Like"
  | exists_ => "Exists"
  | notExists => "NotExists"
  | count => "Count"
  | coalesce => "Coalesce"
  | any => "Any"
  | other name => name

def ofText (name : String) : CallName :=
  match name with
  | "Like" => like
  | "Exists" => exists_
  | "NotExists" => notExists
  | "Count" => count
  | "Coalesce" => coalesce
  | "Any" => any
  | _ => other name

end CallName

inductive Expr
  | literal (literal : Literal)
  | column (column : Column)
  | binary (op : BinaryOp) (left right : Expr)
  | unary (op : UnaryOp) (operand : Expr)
  | call (name : CallName) (args : List Expr)
  | array (items : List Expr)
  | subquery (node : NodeId)
  | embedded (command : Command)
  | delayed (code : CodeId)

namespace Expr

def null : Expr := literal .null

/-- What the expression is, as error messages call it. -/
def kind : Expr → String
  | literal _ => "literal"
  | column _ => "column"
  | binary .. => "binary operation"
  | unary .. => "unary operation"
  | call .. => "call"
  | array _ => "array"
  | subquery _ => "subquery"
  | embedded _ => "command"
  | delayed _ => "delayed code"

def isNull : Expr → Bool
  | literal .null => true
  | _ => false

mutual

/-- The nodes that are used as subqueries, from left to right. -/
def subqueries : Expr → List NodeId
  | subquery node => [node]
  | binary _ left right => left.subqueries ++ right.subqueries
  | unary _ operand => operand.subqueries
  | call _ args => subqueriesOf args
  | array items => subqueriesOf items
  | _ => []

def subqueriesOf : List Expr → List NodeId
  | [] => []
  | e :: rest => e.subqueries ++ subqueriesOf rest

end

end Expr

end DeclarativeSql
