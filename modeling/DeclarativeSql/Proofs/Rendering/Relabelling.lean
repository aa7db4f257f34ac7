import DeclarativeSql.Proofs.Query.Links
import DeclarativeSql.Proofs.Rendering.Statement

/-!
# Relabelled statements

The sources and the commands in a query tree may be replaced by others, each wherever it stands.
Where parentheses stand, what is a test for NULL and which clauses there are does not depend on
them: a statement has the same parts, with the sources and commands in them replaced.
-/
namespace DeclarativeSql

/-- What takes the place of the sources and the commands. -/
structure Relabelling where
  source : ParameterSource → ParameterSource
  command : Command → Command

variable (ρ : Relabelling)

mutual

def Expr.relabel : Expr → Expr
  | .literal .null => .literal .null
  | .literal (.source p) => .literal (.source (ρ.source p))
  | .column c => .column c
  | .binary op left right => .binary op left.relabel right.relabel
  | .unary op e => .unary op e.relabel
  | .call name args => .call name (Expr.relabelAll args)
  | .array items => .array (Expr.relabelAll items)
  | .subquery node => .subquery node
  | .embedded command => .embedded (ρ.command command)
  | .delayed code => .delayed code

def Expr.relabelAll : List Expr → List Expr
  | [] => []
  | e :: rest => e.relabel :: Expr.relabelAll rest

end

def OrderItem.relabel (item : OrderItem) : OrderItem := ⟨item.expr.relabel ρ, item.isDescending⟩

def InsertTarget.relabel (target : InsertTarget) : InsertTarget :=
  ⟨target.table, target.columns, target.guard.map (Expr.relabel ρ)⟩

def NodeKind.relabel : NodeKind → NodeKind
  | owner => owner
  | source t => source t
  | join kind t on => join kind t (on.relabel ρ)
  | filter e => filter (e.relabel ρ)
  | groupBy keys => groupBy (keys.map (Expr.relabel ρ))
  | orderBy items => orderBy (items.map (OrderItem.relabel ρ))
  | limit e => limit (e.relabel ρ)
  | select items => select (items.map (Expr.relabel ρ))
  | values items => values (items.map (Expr.relabel ρ))
  | insert target => insert (target.relabel ρ)

def Node.relabel (n : Node) : Node := ⟨n.kind.relabel ρ, n.parent, n.children⟩

def Arena.relabel (a : Arena) : Arena := ⟨a.tables, a.nodes.map (Node.relabel ρ)⟩

def Part.relabel : Part → Part
  | text token => text token
  | source p => source (ρ.source p)
  | column c => column c
  | table t => table t
  | command c => command (ρ.command c)
  | code id => code id
  | subquery node => subquery node
  | refusal e => refusal e

variable {ρ}

namespace Expr

theorem relabelAll_eq_map (es : List Expr) : relabelAll ρ es = es.map (relabel ρ) := by
  induction es with
  | nil => rfl
  | cons e es ih => rw [relabelAll, ih, List.map_cons]

theorem isNull_relabel (e : Expr) : (e.relabel ρ).isNull = e.isNull := by
  cases e with
  | literal l => cases l <;> rfl
  | _ => rfl

theorem nullTest?_relabel (op : BinaryOp) (left right : Expr) :
    nullTest? op (left.relabel ρ) (right.relabel ρ) = nullTest? op left right := by
  simp only [nullTest?, isNull_relabel]

theorem precedence_relabel (e : Expr) : (e.relabel ρ).precedence = e.precedence := by
  cases e with
  | literal l => cases l <;> rfl
  | binary op left right => simp only [relabel, precedence, nullTest?_relabel]
  | unary op e => cases op <;> rfl
  | call name args => cases name <;> rfl
  | _ => rfl

theorem level_relabel (e : Expr) : (e.relabel ρ).level = e.level := by
  cases e with
  | literal l => cases l <;> rfl
  | binary op left right => simp only [relabel, level, nullTest?_relabel]
  | unary op e => cases op <;> rfl
  | call name args => cases name <;> rfl
  | _ => rfl

theorem groups_relabel (s : Slot) (e : Expr) : s.groups (e.relabel ρ) = s.groups e := by
  simp only [Slot.groups, precedence_relabel, level_relabel]

theorem rightOf_relabel (op : BinaryOp) (e : Expr) :
    Slot.rightOf op (e.relabel ρ) = Slot.rightOf op e := by
  have hheaded : Slot.isHeadedBy op (e.relabel ρ) = Slot.isHeadedBy op e := by
    cases e with
    | literal l => cases l <;> rfl
    | binary child left right => simp only [relabel, Slot.isHeadedBy, nullTest?_relabel]
    | _ => rfl
  rw [Slot.rightOf, Slot.rightOf, hheaded]

end Expr

namespace Part

theorem separated_relabel (pss : List (List Part)) :
    separated (pss.map (List.map (relabel ρ))) = (separated pss).map (relabel ρ) := by
  induction pss with
  | nil => rfl
  | cons ps pss ih =>
    cases pss with
    | nil => rfl
    | cons qs pss =>
      have hrest : separated (ps :: qs :: pss) = ps ++ text "," :: separated (qs :: pss) := rfl
      rw [hrest, List.map_append]
      exact congrArg (ps.map (relabel ρ) ++ text "," :: ·) ih

end Part

namespace Expr

theorem groupedParts_relabel (place : Slot) (e : Expr) (ps : List Part) :
    groupedParts place (e.relabel ρ) (ps.map (Part.relabel ρ)) =
      (groupedParts place e ps).map (Part.relabel ρ) := by
  unfold groupedParts
  rw [groups_relabel]
  split
  · simp [Part.relabel]
  · rfl

theorem existsParts_relabel (keyword : String) (args : List Expr) :
    existsParts keyword (relabelAll ρ args) =
      (existsParts keyword args).map (Part.relabel ρ) := by
  match args with
  | [] => rfl
  | [arg] =>
    cases arg with
    | literal l => cases l <;> rfl
    | _ => rfl
  | first :: _ :: _ =>
    cases first with
    | literal l => cases l <;> rfl
    | _ => rfl

theorem partsOf_relabel {es : List Expr}
    (h : ∀ e ∈ es, (e.relabel ρ).parts = e.parts.map (Part.relabel ρ)) :
    partsOf (relabelAll ρ es) = (partsOf es).map (List.map (Part.relabel ρ)) := by
  rw [partsOf_eq_map, partsOf_eq_map, relabelAll_eq_map, List.map_map, List.map_map]
  exact List.map_congr_left h

theorem parts_call_relabel {args : List Expr}
    (h : ∀ e ∈ args, (e.relabel ρ).parts = e.parts.map (Part.relabel ρ)) (name : CallName) :
    (call name (relabelAll ρ args)).parts = (call name args).parts.map (Part.relabel ρ) := by
  cases name with
  | like =>
    rcases args with _ | ⟨value, _ | ⟨pattern, _ | _⟩⟩
    · rfl
    · rfl
    · simp only [relabelAll, parts, h value (by simp), h pattern (by simp), groupedParts_relabel,
        List.map_append, List.map_cons, Part.relabel]
    · simp [relabelAll_eq_map, parts, unknownCall, Part.relabel]
  | exists_ => exact existsParts_relabel _ args
  | notExists => exact existsParts_relabel _ args
  | count =>
    rcases args with _ | ⟨e, _ | _⟩
    · rfl
    · simp [relabelAll, parts, h e (by simp), Part.relabel]
    · simp [relabelAll_eq_map, parts, unknownCall, Part.relabel]
  | coalesce =>
    cases args with
    | nil => rfl
    | cons e rest =>
      have hall := partsOf_relabel h
      rw [relabelAll, partsOf, partsOf] at hall
      have hparts := Part.separated_relabel (ρ := ρ) (e.parts :: partsOf rest)
      simp only [relabelAll, parts, hall, List.map_append, List.map_cons, List.map_nil,
        Part.relabel, List.cons_append]
      exact congrArg (fun ps => Part.text "COALESCE(" :: (ps ++ [Part.text ")"])) hparts
  | any =>
    rcases args with _ | ⟨e, _ | _⟩
    · rfl
    · simp [relabelAll, parts, h e (by simp), Part.relabel]
    · simp [relabelAll_eq_map, parts, unknownCall, Part.relabel]
  | other name => simp [relabelAll_eq_map, parts, unknownCall, Part.relabel]

/-- The parts of an expression are the same, relabelled. -/
theorem parts_relabel (e : Expr) : (e.relabel ρ).parts = e.parts.map (Part.relabel ρ) := by
  induction e with
  | literal l => cases l <;> rfl
  | binary op left right hl hr =>
    rw [relabel]
    cases hn : nullTest? op left right with
    | none =>
      simp only [parts, nullTest?_relabel, hn, hl, hr, rightOf_relabel, groupedParts_relabel,
        List.map_append, List.map_cons, Part.relabel]
    | some side =>
      cases side <;>
        simp only [parts, nullTest?_relabel, hn, hl, hr, groupedParts_relabel,
          List.map_append, List.map_cons, List.map_nil, Part.relabel]
  | unary op e he =>
    cases op <;> simp only [relabel, parts, he, groupedParts_relabel, List.map_append,
      List.map_cons, List.map_nil, Part.relabel]
  | call name args hargs => exact parts_call_relabel hargs name
  | array items hitems =>
    simp [relabel, parts, partsOf_relabel hitems, Part.separated_relabel, Part.relabel]
  | _ => rfl

end Expr

namespace Query

theorem exprsParts_relabel (es : List Expr) :
    exprsParts (es.map (Expr.relabel ρ)) = (exprsParts es).map (Part.relabel ρ) := by
  rw [exprsParts, exprsParts, ← Part.separated_relabel, List.map_map, List.map_map]
  exact congrArg Part.separated (List.map_congr_left fun e _ => e.parts_relabel)

theorem selectHeadParts_relabel (select : Option (List Expr)) :
    selectHeadParts (select.map (List.map (Expr.relabel ρ))) =
      (selectHeadParts select).map (Part.relabel ρ) := by
  match select with
  | none | some [] => rfl
  | some (e :: rest) =>
    have hitem : ∀ item : Expr × Nat, selectItemParts (item.1.relabel ρ, item.2) =
        (selectItemParts item).map (Part.relabel ρ) := by
      intro item
      simp [selectItemParts, Expr.parts_relabel, Part.relabel]
    have hitems : ((e :: rest).map (Expr.relabel ρ)).zipIdx.map selectItemParts =
        ((e :: rest).zipIdx.map selectItemParts).map (List.map (Part.relabel ρ)) := by
      rw [List.zipIdx_map, List.map_map, List.map_map]
      exact List.map_congr_left fun item _ => hitem item
    have hparts := Part.separated_relabel (ρ := ρ) ((e :: rest).zipIdx.map selectItemParts)
    rw [← hitems] at hparts
    have hhead : ∀ e rest, selectHeadParts (some (e :: rest)) =
        Part.text "SELECT" :: Part.separated ((e :: rest).zipIdx.map selectItemParts) ++
          [Part.text "FROM"] := fun _ _ => rfl
    rw [Option.map_some, List.map_cons, hhead, hhead, ← List.map_cons, hparts]
    simp [Part.relabel]

theorem optionalParts_relabel {α : Type} {f : α → α} {keyword : String} {parts : α → List Part}
    (h : ∀ x, parts (f x) = (parts x).map (Part.relabel ρ)) (x : Option α) :
    optionalParts keyword parts (x.map f) =
      (optionalParts keyword parts x).map (Part.relabel ρ) := by
  cases x with
  | none => rfl
  | some x => simp [optionalParts, h, Part.relabel]

theorem joinParts_relabel (j : JoinKind × Table × Expr) :
    joinParts (j.1, j.2.1, j.2.2.relabel ρ) = (joinParts j).map (Part.relabel ρ) := by
  simp [joinParts, Expr.parts_relabel, Part.relabel]

theorem orderItemsParts_relabel (items : List OrderItem) :
    orderItemsParts (items.map (OrderItem.relabel ρ)) =
      (orderItemsParts items).map (Part.relabel ρ) := by
  rw [orderItemsParts, orderItemsParts, ← Part.separated_relabel, List.map_map, List.map_map]
  refine congrArg Part.separated (List.map_congr_left fun item _ => ?_)
  simp only [Function.comp_apply, orderItemParts, OrderItem.relabel, Expr.parts_relabel,
    List.map_append, List.map_cons, List.map_nil, Part.relabel]
  rfl

end Query

variable (ρ) in
def Clauses.relabel (c : Clauses) : Clauses where
  joins := c.joins.map fun j => (j.1, j.2.1, j.2.2.relabel ρ)
  filter := c.filter.map (Expr.relabel ρ)
  groupBy := c.groupBy.map (List.map (Expr.relabel ρ))
  orderBy := c.orderBy.map (List.map (OrderItem.relabel ρ))
  limit := c.limit.map (Expr.relabel ρ)
  select := c.select.map (List.map (Expr.relabel ρ))

namespace Clauses

theorem add_relabel (c : Clauses) (k : NodeKind) :
    (c.relabel ρ).add (k.relabel ρ) = (c.add k).map (relabel ρ) := by
  cases k <;> simp [NodeKind.relabel, add, relabel, Except.map, NodeKind.sort]

theorem addAll_relabel (c : Clauses) (ks : List NodeKind) :
    (c.relabel ρ).addAll (ks.map (NodeKind.relabel ρ)) = (c.addAll ks).map (relabel ρ) := by
  induction ks generalizing c with
  | nil => rfl
  | cons k ks ih =>
    rw [List.map_cons, addAll, addAll, add_relabel]
    cases c.add k with
    | error e => rfl
    | ok d => exact ih d

theorem ofKinds_relabel (ks : List NodeKind) :
    ofKinds (ks.map (NodeKind.relabel ρ)) = (ofKinds ks).map (relabel ρ) :=
  addAll_relabel empty ks

end Clauses

namespace Query

theorem selectParts_relabel (table : Table) (c : Clauses) :
    selectParts table (c.relabel ρ) = (selectParts table c).map (Part.relabel ρ) := by
  have hjoins : ((c.relabel ρ).joins.map joinParts).flatten =
      ((c.joins.map joinParts).flatten).map (Part.relabel ρ) := by
    rw [List.map_flatten, Clauses.relabel, List.map_map, List.map_map]
    exact congrArg List.flatten (List.map_congr_left fun j _ => joinParts_relabel j)
  rw [selectParts, hjoins]
  simp only [selectParts, Clauses.relabel, List.map_append, selectHeadParts_relabel,
    optionalParts_relabel Expr.parts_relabel, optionalParts_relabel exprsParts_relabel,
    optionalParts_relabel orderItemsParts_relabel]
  rfl

theorem insertHeadParts_relabel (target : InsertTarget) :
    insertHeadParts (target.relabel ρ) = (insertHeadParts target).map (Part.relabel ρ) := by
  have hcolumns : Part.separated (target.columns.map fun c => [.text c.name]) =
      (Part.separated (target.columns.map fun c => [.text c.name])).map (Part.relabel ρ) := by
    rw [← Part.separated_relabel, List.map_map]
    rfl
  rw [insertHeadParts, insertHeadParts, List.map_append, List.map_append, ← hcolumns]
  rfl

theorem insertValuesParts_relabel (target : InsertTarget) (items : List Expr) :
    insertValuesParts (target.relabel ρ) (items.map (Expr.relabel ρ)) =
      (insertValuesParts target items).map (Part.relabel ρ) := by
  have hguard : insertGuardParts (target.relabel ρ) (target.relabel ρ).guard =
      (insertGuardParts target target.guard).map (Part.relabel ρ) := by
    rw [InsertTarget.relabel]
    cases target.guard with
    | none => rfl
    | some condition => simp [insertGuardParts, Expr.parts_relabel, Part.relabel]
  rw [insertValuesParts, insertValuesParts, hguard, exprsParts_relabel]
  simp [Part.relabel]

end Query

namespace Arena

variable (a : Arena)

theorem size_relabel : (a.relabel ρ).size = a.size := List.length_map _

theorem node?_relabel (id : NodeId) :
    (a.relabel ρ).node? id = (a.node? id).map (Node.relabel ρ) := List.getElem?_map

theorem parent?_relabel (id : NodeId) : (a.relabel ρ).parent? id = a.parent? id := by
  rw [parent?, node?_relabel, parent?]
  cases a.node? id <;> rfl

theorem kinds_relabel (ids : List NodeId) :
    (a.relabel ρ).kinds ids = (a.kinds ids).map (NodeKind.relabel ρ) := by
  rw [kinds, kinds, List.map_filterMap]
  refine List.filterMap_congr fun id _ => ?_
  rw [node?_relabel]
  cases a.node? id <;> rfl

theorem ownerOf_relabel (id : NodeId) : (a.relabel ρ).ownerOf id = a.ownerOf id :=
  ownerOf_congr a.size_relabel a.parent?_relabel id

theorem checkSelectLists_relabel (target : InsertTarget) (ks : List NodeKind) :
    checkSelectLists (target.relabel ρ) (ks.map (NodeKind.relabel ρ)) =
      checkSelectLists target ks := by
  induction ks with
  | nil => rfl
  | cons k ks ih =>
    cases k with
    | select items =>
      simp only [List.map_cons, NodeKind.relabel, checkSelectLists, List.length_map, ih]
      rfl
    | _ => exact ih

theorem sourceParts_relabel (id : NodeId) :
    (a.relabel ρ).sourceParts id = (a.sourceParts id).map (Part.relabel ρ) := by
  unfold sourceParts
  rw [node?_relabel]
  cases a.node? id with
  | none => rfl
  | some n =>
    obtain ⟨kind, parent, children⟩ := n
    cases kind with
    | source table =>
      simp only [Option.map_some, Node.relabel, NodeKind.relabel, kinds_relabel,
        Clauses.ofKinds_relabel]
      cases Clauses.ofKinds (a.kinds children) with
      | error e => rfl
      | ok c => exact Query.selectParts_relabel table c
    | _ => rfl

theorem insertSourceParts_relabel (target : InsertTarget) (id : NodeId) (n : Node) :
    (a.relabel ρ).insertSourceParts (target.relabel ρ) id (n.relabel ρ) =
      (a.insertSourceParts target id n).map (Part.relabel ρ) := by
  obtain ⟨kind, parent, children⟩ := n
  cases kind with
  | values items =>
    simp only [insertSourceParts, Node.relabel, NodeKind.relabel,
      Query.insertHeadParts_relabel, Query.insertValuesParts_relabel, List.map_append]
  | source table =>
    simp only [insertSourceParts, Node.relabel, NodeKind.relabel, kinds_relabel,
      checkSelectLists_relabel]
    cases hguard : target.guard with
    | some condition => simp [InsertTarget.relabel, hguard, Part.relabel]
    | none =>
      have hnone : (target.relabel ρ).guard = none := by simp [InsertTarget.relabel, hguard]
      rw [hnone]
      simp only
      cases checkSelectLists target (a.kinds children) with
      | error e => rfl
      | ok => simp only [Query.insertHeadParts_relabel, sourceParts_relabel, List.map_append]
  | _ => rfl

theorem insertParts_relabel (target : InsertTarget) (children : List NodeId) :
    (a.relabel ρ).insertParts (target.relabel ρ) children =
      (a.insertParts target children).map (Part.relabel ρ) := by
  cases children with
  | nil => rfl
  | cons id rest =>
    simp only [insertParts, node?_relabel]
    cases a.node? id with
    | none => rfl
    | some n => exact a.insertSourceParts_relabel target id n

theorem statementParts_relabel (id : NodeId) :
    (a.relabel ρ).statementParts id = (a.statementParts id).map (Part.relabel ρ) := by
  unfold statementParts
  rw [ownerOf_relabel, node?_relabel]
  cases a.ownerOf id with
  | error e => rfl
  | ok owner =>
    cases a.node? id with
    | none => rfl
    | some n =>
      obtain ⟨kind, parent, children⟩ := n
      cases kind with
      | source table => exact a.sourceParts_relabel id
      | insert target => exact a.insertParts_relabel target children
      | _ => rfl

theorem statementDepth_relabel (id : NodeId) :
    (a.relabel ρ).statementDepth id = a.statementDepth id := by
  have hdepth : ∀ n : Node, (a.relabel ρ).insertDepth (n.relabel ρ) = a.insertDepth n := by
    rintro ⟨kind, parent, children⟩
    cases kind <;> simp only [insertDepth, Node.relabel, NodeKind.relabel, size_relabel]
  unfold statementDepth
  rw [node?_relabel, size_relabel]
  cases a.node? id with
  | none => rfl
  | some n =>
    obtain ⟨kind, parent, children⟩ := n
    cases kind with
    | insert target =>
      cases children with
      | nil => rfl
      | cons child rest =>
        simp only [Option.map_some, Node.relabel, NodeKind.relabel, node?_relabel]
        cases a.node? child with
        | none => rfl
        | some source => exact hdepth source
    | _ => rfl

end Arena

end DeclarativeSql
