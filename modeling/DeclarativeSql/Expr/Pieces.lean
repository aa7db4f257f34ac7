import DeclarativeSql.Code.Piece
import DeclarativeSql.Expr.Grouping

/-!
# Expressions as pieces

An expression is written from left to right, with parentheses around the operands that need them.
Calls outside the list of known ones and subqueries outside EXISTS have no text.
-/
namespace DeclarativeSql

/-- What an expression needs of the query around it. -/
structure ExprContext where
  columnReference : Column → Except ConstructionError String
  subquery : NodeId → Pieces

namespace Expr

/-- Puts an operand into its place. -/
def grouped (s : Slot) (e : Expr) (pieces : List Piece) : List Piece :=
  if s.groups e then .text "(" :: pieces ++ [Piece.text ")"] else pieces

def nullTestText (isNull : Bool) : String := if isNull then "IS NULL" else "IS NOT NULL"

/-- What stands inside EXISTS: a subquery or a command. -/
def existsOperand (ctx : ExprContext) (keyword : String) : Expr → Pieces
  | subquery node => ctx.subquery node
  | embedded command => do return [← Piece.ofCommand command]
  | other => .error (.unsupportedExpression (keyword ++ " over " ++ other.kind))

def existsPieces (ctx : ExprContext) (keyword : String) : List Expr → Pieces
  | [arg] => do
    return .text keyword :: .text "(" :: (← existsOperand ctx keyword arg) ++ [.text ")"]
  | _ => .error (.unsupportedCall (keyword ++ " takes one subquery"))

def unknownCall (name : CallName) (args : List Expr) : ConstructionError :=
  .unsupportedCall (name.text ++ "/" ++ toString args.length)

mutual

def pieces (ctx : ExprContext) : Expr → Pieces
  | literal .null => .ok [.text "NULL"]
  | literal (.source s) => .ok [.source s]
  | column c => do return [.text (← ctx.columnReference c)]
  | binary op left right =>
    match nullTest? op left right with
    | some .left => do
      return grouped .nullTest left (← left.pieces ctx) ++ [.text (nullTestText (op = .equal))]
    | some .right => do
      return grouped .nullTest right (← right.pieces ctx) ++ [.text (nullTestText (op = .equal))]
    | none => do
      return grouped (.leftOf op) left (← left.pieces ctx) ++
        .text op.text :: grouped (.rightOf op right) right (← right.pieces ctx)
  | unary .not e => do
    return .text "NOT" :: grouped (.new unaryPrecedence .negation) e (← e.pieces ctx)
  | unary .negate e => do
    return .text "-" :: grouped (.new unaryPrecedence .minus) e (← e.pieces ctx)
  | unary .hasValue e => do
    return grouped .nullTest e (← e.pieces ctx) ++ [.text (nullTestText false)]
  | call .like [value, pattern] => do
    return grouped .like value (← value.pieces ctx) ++
      .text "LIKE" :: grouped (.closed .like) pattern (← pattern.pieces ctx)
  | call .exists_ args => existsPieces ctx "EXISTS" args
  | call .notExists args => existsPieces ctx "NOT EXISTS" args
  | call .count [] => .ok [.text "COUNT(*)"]
  | call .count [e] => do return .text "COUNT(" :: (← e.pieces ctx) ++ [.text ")"]
  | call .coalesce (e :: rest) => do
    return .text "COALESCE(" :: Piece.separated (← piecesOf ctx (e :: rest)) ++ [.text ")"]
  | call .any [e] => do return .text "ANY(" :: (← e.pieces ctx) ++ [.text ")"]
  | call name args => .error (unknownCall name args)
  | array items => do
    return .text "ARRAY[" :: Piece.separated (← piecesOf ctx items) ++ [.text "]"]
  | subquery _ => .error (.unsupportedExpression "subquery outside EXISTS / NOT EXISTS")
  | embedded command => do return [.text "(", ← Piece.ofCommand command, .text ")"]
  | delayed code => .ok [.code code]

def piecesOf (ctx : ExprContext) : List Expr → Except ConstructionError (List (List Piece))
  | [] => .ok []
  | e :: rest => do return (← e.pieces ctx) :: (← piecesOf ctx rest)

end

end Expr

end DeclarativeSql
