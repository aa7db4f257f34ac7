import DeclarativeSql.Expr.Grouping

/-!
# Readings

What a text of operators and operands says, as a tree. An expression asks for one reading: a
comparison with NULL is a test for NULL, and NOT EXISTS is NOT before EXISTS. Literals, columns,
commands and the remaining calls are atoms.
-/
namespace DeclarativeSql

inductive Reading
  | atom (e : Expr)
  | binary (op : BinaryOp) (left right : Reading)
  | not (t : Reading)
  | negate (t : Reading)
  /-- IS NULL or IS NOT NULL. -/
  | nullTest (isNull : Bool) (t : Reading)
  | like (value pattern : Reading)
  | array (items : List Reading)

namespace Reading

@[elab_as_elim, induction_eliminator]
theorem induct {motive : Reading → Prop}
    (atom : ∀ e, motive (.atom e))
    (binary : ∀ op left right, motive left → motive right → motive (.binary op left right))
    (not : ∀ t, motive t → motive (.not t))
    (negate : ∀ t, motive t → motive (.negate t))
    (nullTest : ∀ isNull t, motive t → motive (.nullTest isNull t))
    (like : ∀ value pattern, motive value → motive pattern → motive (.like value pattern))
    (array : ∀ items, (∀ t ∈ items, motive t) → motive (.array items))
    (t : Reading) : motive t :=
  Reading.rec (motive_1 := motive) (motive_2 := fun items => ∀ t ∈ items, motive t)
    atom binary not negate nullTest like array (by simp)
    (fun t rest ht hrest => by simpa using ⟨ht, hrest⟩) t

def precedence : Reading → Nat
  | binary op _ _ => op.precedence
  | not _ | negate _ => Expr.unaryPrecedence
  | nullTest .. => Expr.nullTestPrecedence
  | like .. => Expr.likePrecedence
  | atom _ | array _ => Expr.atomPrecedence

def level : Reading → BindingLevel
  | binary op _ _ => op.level
  | not _ => .negation
  | negate _ => .minus
  | nullTest .. => .nullTest
  | like .. => .like
  | atom _ | array _ => .atom

def isHeadedBy (op : BinaryOp) : Reading → Bool
  | binary child _ _ => child = op
  | _ => false

/-- A right operand goes on without parentheses if it is a chain of the same associative
operator. -/
def joinsRight (op : BinaryOp) (right : Reading) : Bool :=
  op.isAssociative && right.isHeadedBy op

end Reading

namespace Expr.Slot

/-- What is read needs parentheses in this place. -/
def encloses (s : Slot) (t : Reading) : Bool :=
  t.precedence < s.precedence || t.level.rank < s.level.rank ||
    (s.precedenceIsClosed && t.precedence == s.precedence) ||
    (s.levelIsClosed && t.level == s.level)

/-- The place to the right of an operator. -/
def before (op : BinaryOp) (right : Reading) : Slot :=
  if right.joinsRight op then leftOf op else (leftOf op).closed

end Expr.Slot

namespace Expr

@[elab_as_elim, induction_eliminator]
theorem induct {motive : Expr → Prop}
    (literal : ∀ l, motive (.literal l))
    (column : ∀ c, motive (.column c))
    (binary : ∀ op left right, motive left → motive right → motive (.binary op left right))
    (unary : ∀ op e, motive e → motive (.unary op e))
    (call : ∀ name args, (∀ e ∈ args, motive e) → motive (.call name args))
    (array : ∀ items, (∀ e ∈ items, motive e) → motive (.array items))
    (subquery : ∀ node, motive (.subquery node))
    (embedded : ∀ command, motive (.embedded command))
    (delayed : ∀ code, motive (.delayed code))
    (e : Expr) : motive e :=
  Expr.rec (motive_1 := motive) (motive_2 := fun args => ∀ e ∈ args, motive e)
    literal column binary unary call array subquery embedded delayed (by simp)
    (fun e rest he hrest => by simpa using ⟨he, hrest⟩) e

mutual

/-- What the text of the expression is meant to say. -/
def reading : Expr → Reading
  | binary op left right =>
    match nullTest? op left right with
    | some .left => .nullTest (op = .equal) left.reading
    | some .right => .nullTest (op = .equal) right.reading
    | none => .binary op left.reading right.reading
  | unary .not e => .not e.reading
  | unary .negate e => .negate e.reading
  | unary .hasValue e => .nullTest false e.reading
  | call .like [value, pattern] => .like value.reading pattern.reading
  | call .notExists args => .not (.atom (.call .exists_ args))
  | array items => .array (readings items)
  | e => .atom e

def readings : List Expr → List Reading
  | [] => []
  | e :: rest => e.reading :: readings rest

end

end Expr

end DeclarativeSql
