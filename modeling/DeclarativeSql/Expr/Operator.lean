/-!
# Operators

Binary and prefix operators with the precedence that decides where an expression is grouped. A
higher number binds tighter.
-/
namespace DeclarativeSql

inductive BinaryOp
  | orElse
  | andAlso
  | bitOr
  | bitXor
  | bitAnd
  | equal
  | notEqual
  | lessThan
  | lessThanOrEqual
  | greaterThan
  | greaterThanOrEqual
  | leftShift
  | rightShift
  | add
  | subtract
  | concat
  | multiply
  | divide
  | modulo
  | power
  deriving DecidableEq

inductive UnaryOp
  | not
  | negate
  /-- The operand is not NULL. -/
  | hasValue
  deriving DecidableEq

namespace BinaryOp

def all : List BinaryOp :=
  [orElse, andAlso, bitOr, bitXor, bitAnd, equal, notEqual, lessThan, lessThanOrEqual,
    greaterThan, greaterThanOrEqual, leftShift, rightShift, add, subtract, concat, multiply,
    divide, modulo, power]

def text : BinaryOp → String
  | orElse => "OR"
  | andAlso => "AND"
  | bitOr => "|"
  | bitXor => "#"
  | bitAnd => "&"
  | equal => "="
  | notEqual => "<>"
  | lessThan => "<"
  | lessThanOrEqual => "<="
  | greaterThan => ">"
  | greaterThanOrEqual => ">="
  | leftShift => "<<"
  | rightShift => ">>"
  | add => "+"
  | subtract => "-"
  | concat => "||"
  | multiply => "*"
  | divide => "/"
  | modulo => "%"
  | power => "^"

def precedence : BinaryOp → Nat
  | orElse => 2
  | andAlso => 3
  | bitOr => 4
  | bitXor => 5
  | bitAnd => 6
  | equal | notEqual => 7
  | lessThan | lessThanOrEqual | greaterThan | greaterThanOrEqual => 8
  | leftShift | rightShift => 9
  | add | subtract | concat => 10
  | multiply | divide | modulo => 11
  | power => 13

/-- `a op (b op c)` may be written without parentheses. -/
def isAssociative : BinaryOp → Bool
  | orElse | andAlso | bitOr | bitXor | bitAnd | add | concat | multiply => true
  | _ => false

end BinaryOp

end DeclarativeSql
