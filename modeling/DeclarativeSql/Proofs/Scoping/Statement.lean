import DeclarativeSql.Proofs.Query.Links
import DeclarativeSql.Proofs.Scoping.Fragment

/-!
# Statements as fragments

The queries of a statement: a source is one, with its subqueries inside. A list of values is one
without tables, and the guard of an insert is a query inside it.
-/
namespace DeclarativeSql

namespace Arena

variable (a : Arena)

/-- The query of a source, as `selectPieces` writes it. -/
def queryFragments : (depth : Nat) → NodeId → QueryFragments
  | 0, id => .error (.endlessSubquery id)
  | depth + 1, id => Part.fragmentsOf a (queryFragments depth) (a.sourceParts id)

def guardFragments (depth : Nat) (target : InsertTarget) : QueryFragments :=
  match target.guard with
  | some _ => do
    let guard := Query.insertGuardParts target target.guard
    return [.select (← Part.fragmentsOf a (a.queryFragments depth) guard)]
  | none => .ok []

def valuesFragments (depth : Nat) (target : InsertTarget) (items : List Expr) : QueryFragments := do
  let values := .text "SELECT" :: Query.exprsParts items
  return [.select ((← Part.fragmentsOf a (a.queryFragments depth) values) ++
    (← a.guardFragments depth target))]

def headFragments (target : InsertTarget) : List QueryFragment :=
  (Query.insertHead target).map .piece

def insertFragments (target : InsertTarget) (children : List NodeId) : QueryFragments :=
  match children with
  | [] => .error (.unsupportedExpression "insert without a value source")
  | id :: _ => do
    let source ← a.node id
    match source.kind, target.guard with
    | .values items, _ =>
      return headFragments target ++ (← a.valuesFragments (a.size + 1) target items)
    | .source _, none => do
      checkSelectLists target (a.kinds source.children)
      return headFragments target ++ [.select (← a.queryFragments (a.size + 1) id)]
    | .source _, some _ => .error (.unsupportedExpression "insert guard requires a value list")
    | other, _ => .error (.invalidChild other.sort .insert)

/-- The fragments of the statement at a node. -/
def fragments (id : NodeId) : QueryFragments := do
  let _ ← a.ownerOf id
  let n ← a.node id
  match n.kind with
  | .source _ => return [.select (← a.queryFragments (a.size + 1) id)]
  | .insert target => a.insertFragments target n.children
  | kind => .error (notA kind.sort "statement")

variable {a}

theorem map_queryFragments (depth : Nat) (id : NodeId) :
    (a.queryFragments depth id).map QueryFragment.piecesOf = a.selectPieces depth id := by
  induction depth generalizing id with
  | zero => rfl
  | succ depth ih => rw [queryFragments, selectPieces_succ, Part.map_fragmentsOf ih]

theorem map_fragmentsOf (depth : Nat) (ps : List Part) :
    (Part.fragmentsOf a (a.queryFragments depth) ps).map QueryFragment.piecesOf =
      Part.piecesOf (a.surroundings depth) ps :=
  Part.map_fragmentsOf (map_queryFragments depth) ps

theorem piecesOf_select (body : List QueryFragment) :
    QueryFragment.piecesOf [.select body] = QueryFragment.piecesOf body := List.append_nil _

theorem map_guardFragments (depth : Nat) (target : InsertTarget) :
    (a.guardFragments depth target).map QueryFragment.piecesOf =
      Part.piecesOf (a.surroundings depth) (Query.insertGuardParts target target.guard) := by
  rw [← map_fragmentsOf, guardFragments]
  cases target.guard with
  | none => rfl
  | some condition =>
    simp only
    cases Part.fragmentsOf a (a.queryFragments depth)
        (Query.insertGuardParts target (some condition)) with
    | error e => rfl
    | ok guard => exact congrArg Except.ok (piecesOf_select guard)

theorem map_valuesFragments (depth : Nat) (target : InsertTarget) (items : List Expr) :
    (a.valuesFragments depth target items).map QueryFragment.piecesOf =
      Part.piecesOf (a.surroundings depth) (Query.insertValuesParts target items) := by
  rw [Query.insertValuesParts, Part.piecesOf_append, ← map_fragmentsOf, ← map_guardFragments,
    valuesFragments]
  cases Part.fragmentsOf a (a.queryFragments depth) (.text "SELECT" :: Query.exprsParts items) with
  | error e => rfl
  | ok values =>
    cases a.guardFragments depth target with
    | error e => rfl
    | ok guard =>
      exact congrArg Except.ok
        ((piecesOf_select _).trans (QueryFragment.piecesOf_append values guard))

theorem map_headFragments_append (target : InsertTarget) (fs : QueryFragments) :
    (do return headFragments target ++ (← fs) : QueryFragments).map QueryFragment.piecesOf =
      (fs.map QueryFragment.piecesOf).map (Query.insertHead target ++ ·) := by
  cases fs with
  | error e => rfl
  | ok fs =>
    refine congrArg Except.ok ?_
    rw [QueryFragment.piecesOf_append, headFragments, QueryFragment.piecesOf_map_piece]

theorem map_select (body : QueryFragments) :
    (do return [.select (← body)] : QueryFragments).map QueryFragment.piecesOf =
      body.map QueryFragment.piecesOf := by
  cases body with
  | error e => rfl
  | ok body => exact congrArg Except.ok (piecesOf_select body)

theorem map_insertFragments (target : InsertTarget) (children : List NodeId) :
    (a.insertFragments target children).map QueryFragment.piecesOf =
      a.insertPieces target children := by
  unfold insertFragments insertPieces insertSource
  cases children with
  | nil => rfl
  | cons id rest =>
    simp only
    cases a.node id with
    | error e => rfl
    | ok source =>
      simp only [ok_bind]
      cases source.kind with
      | values items =>
        simp only
        rw [map_headFragments_append, map_valuesFragments]
        have hvalues := Query.insertValues_eq (s := a.surroundings (a.size + 1)) target items
        rw [← hvalues]
        rfl
      | source table =>
        cases target.guard with
        | some condition => rfl
        | none =>
          simp only
          cases checkSelectLists target (a.kinds source.children) with
          | error e => rfl
          | ok =>
            simp only [ok_bind]
            rw [queryPieces, ← map_queryFragments]
            cases a.queryFragments (a.size + 1) id with
            | error e => rfl
            | ok body =>
              refine (map_headFragments_append target (.ok [.select body])).trans ?_
              rw [Except.map, piecesOf_select]
              rfl
      | _ => rfl

theorem map_fragments (id : NodeId) :
    (a.fragments id).map QueryFragment.piecesOf = a.pieces id := by
  unfold fragments pieces
  cases a.ownerOf id with
  | error e => rfl
  | ok owner =>
    simp only [ok_bind]
    cases a.node id with
    | error e => rfl
    | ok n =>
      simp only [ok_bind]
      cases n.kind with
      | source table => simp only [map_select, map_queryFragments, queryPieces]
      | insert target => exact map_insertFragments target n.children
      | _ => rfl

end Arena

end DeclarativeSql
