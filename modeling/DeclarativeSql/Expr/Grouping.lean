import DeclarativeSql.Expr.Basic

/-!
# Grouping

Where an operand needs parentheses. Two orders decide: the precedence of the operators, and the
levels at which the server's grammar binds them. An operand is grouped if either order would read it
apart.
-/
namespace DeclarativeSql

/-- The levels of the grammar, from the loosest on. -/
inductive BindingLevel
  | disjunction
  | conjunction
  | negation
  | nullTest
  | comparison
  | like
  | generic
  | additive
  | multiplicative
  | power
  | minus
  | atom
  deriving DecidableEq

namespace BindingLevel

def rank (l : BindingLevel) : Nat := l.ctorIdx

/-- Operators of these levels can not be chained. -/
def isNonAssociative : BindingLevel → Bool
  | nullTest | comparison | like => true
  | _ => false

end BindingLevel

def BinaryOp.level : BinaryOp → BindingLevel
  | orElse => .disjunction
  | andAlso => .conjunction
  | equal | notEqual | lessThan | lessThanOrEqual | greaterThan | greaterThanOrEqual =>
    .comparison
  | bitOr | bitXor | bitAnd | leftShift | rightShift | concat => .generic
  | add | subtract => .additive
  | multiply | divide | modulo => .multiplicative
  | power => .power

/-- A comparison with NULL, which is written as a test of the other side. -/
inductive NullTest
  | left
  | right
  deriving DecidableEq

namespace Expr

/-- The side that is tested for NULL. -/
def nullTest? (op : BinaryOp) (left right : Expr) : Option NullTest :=
  if op = .equal || op = .notEqual then
    if right.isNull then some .left else if left.isNull then some .right else none
  else none

def nullTestPrecedence : Nat := 7

def likePrecedence : Nat := 8

def unaryPrecedence : Nat := 12

def atomPrecedence : Nat := 15

def precedence : Expr → Nat
  | binary op left right =>
    if (nullTest? op left right).isSome then nullTestPrecedence else op.precedence
  | unary .hasValue _ => nullTestPrecedence
  | unary _ _ => unaryPrecedence
  | call .like _ => likePrecedence
  | call .notExists _ => unaryPrecedence
  | _ => atomPrecedence

def level : Expr → BindingLevel
  | binary op left right => if (nullTest? op left right).isSome then .nullTest else op.level
  | unary .not _ => .negation
  | unary .negate _ => .minus
  | unary .hasValue _ => .nullTest
  | call .like _ => .like
  | call .notExists _ => .negation
  | _ => .atom

/-- The place of an operand. -/
structure Slot where
  precedence : Nat
  level : BindingLevel
  /-- An operand of equal precedence is grouped. -/
  precedenceIsClosed : Bool
  /-- An operand of equal level is grouped. -/
  levelIsClosed : Bool

namespace Slot

def new (precedence : Nat) (level : BindingLevel) : Slot :=
  ⟨precedence, level, false, level.isNonAssociative⟩

def closed (s : Slot) : Slot := { s with precedenceIsClosed := true, levelIsClosed := true }

def leftOf (op : BinaryOp) : Slot := .new op.precedence op.level

/-- The expression is an operation with `op`, not a test for NULL. -/
def isHeadedBy (op : BinaryOp) : Expr → Bool
  | .binary child left right => child = op && (nullTest? child left right).isNone
  | _ => false

/-- Only a chain of one associative operator goes on without parentheses. -/
def rightOf (op : BinaryOp) (right : Expr) : Slot :=
  if op.isAssociative && isHeadedBy op right then leftOf op else (leftOf op).closed

def nullTest : Slot := .new nullTestPrecedence .nullTest

def like : Slot := .new likePrecedence .like

def groups (s : Slot) (e : Expr) : Bool :=
  e.precedence < s.precedence || e.level.rank < s.level.rank ||
    (s.precedenceIsClosed && e.precedence == s.precedence) ||
    (s.levelIsClosed && e.level == s.level)

end Slot

end Expr

end DeclarativeSql
