import DeclarativeSql.Proofs.Parameters.History
import DeclarativeSql.Proofs.Rendering.Relabelling
import DeclarativeSql.Proofs.Values.Commands

/-!
# Statements with other values

The values in a query tree may be exchanged for others as well. Where parentheses stand, what is a
test for NULL and which clauses there are does not depend on values, so neither does the text that
is built.
-/
namespace DeclarativeSql

variable (σ : Exchange)

mutual

def Expr.exchange : Expr → Expr
  | .literal .null => .literal .null
  | .literal (.source p) => .literal (.source (p.exchange σ))
  | .column c => .column c
  | .binary op left right => .binary op left.exchange right.exchange
  | .unary op e => .unary op e.exchange
  | .call name args => .call name (Expr.exchangeAll args)
  | .array items => .array (Expr.exchangeAll items)
  | .subquery node => .subquery node
  | .embedded command => .embedded (command.exchange σ)
  | .delayed code => .delayed code

def Expr.exchangeAll : List Expr → List Expr
  | [] => []
  | e :: rest => e.exchange :: Expr.exchangeAll rest

end

def OrderItem.exchange (item : OrderItem) : OrderItem := ⟨item.expr.exchange σ, item.isDescending⟩

def InsertTarget.exchange (target : InsertTarget) : InsertTarget :=
  ⟨target.table, target.columns, target.guard.map (Expr.exchange σ)⟩

def NodeKind.exchange : NodeKind → NodeKind
  | owner => owner
  | source t => source t
  | join kind t on => join kind t (on.exchange σ)
  | filter e => filter (e.exchange σ)
  | groupBy keys => groupBy (keys.map (Expr.exchange σ))
  | orderBy items => orderBy (items.map (OrderItem.exchange σ))
  | limit e => limit (e.exchange σ)
  | select items => select (items.map (Expr.exchange σ))
  | values items => values (items.map (Expr.exchange σ))
  | insert target => insert (target.exchange σ)

def Node.exchange (n : Node) : Node := ⟨n.kind.exchange σ, n.parent, n.children⟩

def Arena.exchange (a : Arena) : Arena := ⟨a.tables, a.nodes.map (Node.exchange σ)⟩

def Part.exchange : Part → Part
  | text token => text token
  | source p => source (p.exchange σ)
  | column c => column c
  | table t => table t
  | command c => command (c.exchange σ)
  | code id => code id
  | subquery node => subquery node
  | refusal e => refusal e

variable {σ}

variable (σ) in
def Exchange.relabelling : Relabelling := ⟨ParameterSource.exchange σ, Command.exchange σ⟩

theorem Expr.exchangeAll_eq_map (es : List Expr) : exchangeAll σ es = es.map (exchange σ) := by
  induction es with
  | nil => rfl
  | cons e es ih => rw [exchangeAll, ih, List.map_cons]

theorem Expr.exchange_eq_relabel (e : Expr) : e.exchange σ = e.relabel σ.relabelling := by
  have hall : ∀ es : List Expr, (∀ e ∈ es, e.exchange σ = e.relabel σ.relabelling) →
      exchangeAll σ es = relabelAll σ.relabelling es := by
    intro es h
    rw [exchangeAll_eq_map, relabelAll_eq_map]
    exact List.map_congr_left h
  induction e with
  | literal l => cases l <;> rfl
  | binary op left right hl hr => rw [exchange, hl, hr, relabel]
  | unary op e he => rw [exchange, he, relabel]
  | call name args hargs => rw [exchange, hall args hargs, relabel]
  | array items hitems => rw [exchange, hall items hitems, relabel]
  | _ => rfl

theorem NodeKind.exchange_eq_relabel (k : NodeKind) :
    k.exchange σ = k.relabel σ.relabelling := by
  have hexpr : Expr.exchange σ = Expr.relabel σ.relabelling := funext Expr.exchange_eq_relabel
  have hitem : OrderItem.exchange σ = OrderItem.relabel σ.relabelling := by
    funext item
    rw [OrderItem.exchange, hexpr, OrderItem.relabel]
  cases k <;> simp only [exchange, relabel, hexpr, hitem, InsertTarget.exchange,
    InsertTarget.relabel]

theorem Arena.exchange_eq_relabel (a : Arena) : a.exchange σ = a.relabel σ.relabelling := by
  have hnode : Node.exchange σ = Node.relabel σ.relabelling := by
    funext n
    rw [Node.exchange, NodeKind.exchange_eq_relabel, Node.relabel]
  rw [exchange, hnode, relabel]

theorem Part.exchange_eq_relabel : exchange σ = relabel σ.relabelling := by
  funext p
  cases p <;> rfl

/-- Other values around the same tables and columns. -/
structure Surroundings.Corresponds (σ : Exchange) (s s' : Surroundings) : Prop where
  columns : s'.context.columnReference = s.context.columnReference
  subqueries : ∀ id,
    s'.context.subquery id = (s.context.subquery id).map (List.map (Piece.exchange σ))
  tables : ∀ t, s'.introduce t = (s.introduce t).map (List.map (Piece.exchange σ))

section Surroundings

variable {s s' : Surroundings} (h : s.Corresponds σ s')

include h

theorem Part.pieces_exchange (p : Part) :
    (p.exchange σ).pieces s' = (p.pieces s).map (List.map (Piece.exchange σ)) := by
  cases p with
  | column c =>
    simp only [exchange, pieces, h.columns]
    cases s.context.columnReference c <;> rfl
  | table t => exact h.tables t
  | subquery id => exact h.subqueries id
  | command c =>
    simp only [exchange, pieces, Piece.ofCommand_exchange]
    cases Piece.ofCommand c <;> rfl
  | _ => rfl

theorem Part.piecesOf_exchange (ps : List Part) :
    piecesOf s' (ps.map (exchange σ)) = (piecesOf s ps).map (List.map (Piece.exchange σ)) := by
  induction ps with
  | nil => rfl
  | cons p ps ih =>
    rw [List.map_cons, piecesOf, piecesOf, ih, Part.pieces_exchange h]
    cases p.pieces s with
    | error e => rfl
    | ok qs =>
      cases piecesOf s ps with
      | error e => rfl
      | ok rest => exact congrArg Except.ok List.map_append.symm

end Surroundings

namespace Arena

variable (a : Arena)

theorem introduce_exchange (t : Table) :
    (a.exchange σ).introduce t = (a.introduce t).map (List.map (Piece.exchange σ)) := by
  have halias : (a.exchange σ).alias? t.id = a.alias? t.id := rfl
  rw [introduce, introduce, halias]
  cases a.alias? t.id <;> rfl

theorem surroundings_corresponds {depth : Nat}
    (h : ∀ id, (a.exchange σ).selectPieces depth id =
      (a.selectPieces depth id).map (List.map (Piece.exchange σ))) :
    (a.surroundings depth).Corresponds σ ((a.exchange σ).surroundings depth) := by
  have hcolumns : (a.exchange σ).columnReference = a.columnReference := rfl
  refine ⟨hcolumns, fun id => ?_, a.introduce_exchange⟩
  have howner : (a.exchange σ).ownerOf id = a.ownerOf id := by
    rw [exchange_eq_relabel, ownerOf_relabel]
  simp only [surroundings, howner, h, bind, Except.bind]
  cases a.ownerOf id <;> rfl

theorem selectPieces_exchange (depth : Nat) (id : NodeId) :
    (a.exchange σ).selectPieces depth id =
      (a.selectPieces depth id).map (List.map (Piece.exchange σ)) := by
  induction depth generalizing id with
  | zero => rfl
  | succ depth ih =>
    have hparts : (a.exchange σ).sourceParts id = (a.sourceParts id).map (Part.exchange σ) := by
      rw [exchange_eq_relabel, sourceParts_relabel, Part.exchange_eq_relabel]
    rw [selectPieces_succ, selectPieces_succ, hparts,
      Part.piecesOf_exchange (a.surroundings_corresponds ih)]

theorem build_exchange (id : NodeId) :
    (a.exchange σ).build id = (a.build id).map (Command.exchange σ) := by
  have hpieces : (a.exchange σ).pieces id =
      (a.pieces id).map (List.map (Piece.exchange σ)) := by
    have hparts : (a.exchange σ).statementParts id =
        (a.statementParts id).map (Part.exchange σ) := by
      rw [exchange_eq_relabel, statementParts_relabel, Part.exchange_eq_relabel]
    have hdepth : (a.exchange σ).statementDepth id = a.statementDepth id := by
      rw [exchange_eq_relabel, statementDepth_relabel]
    rw [pieces_eq, pieces_eq, hdepth, hparts,
      Part.piecesOf_exchange (a.surroundings_corresponds (a.selectPieces_exchange _))]
  rw [build, build, hpieces]
  cases a.pieces id with
  | error e => rfl
  | ok ps =>
    have hbuffer := Piece.buffer_exchange (σ := σ) (ps ++ [Piece.text ";"])
    rw [List.map_append] at hbuffer
    have hend : ([.text ";"] : List Piece).map (Piece.exchange σ) = [.text ";"] := rfl
    rw [hend] at hbuffer
    simp only [Except.map, bind, Except.bind, hbuffer]
    cases Piece.buffer (ps ++ [Piece.text ";"]) with
    | error e => rfl
    | ok b => exact congrArg Except.ok (Command.ofBuffer_exchange b)

end Arena

/-- Whatever values take the place of those in a query tree and in the commands that it asks for,
what is built has the same text, or the same failure, and the same names and arguments of
parameters. Only the values of the value parameters are others. -/
theorem Arena.text_without_values {a : Arena} {id : NodeId} {c : Command} (h : a.build id = .ok c)
    (σ : Exchange) (cs : List Command) (site : Site) :
    ∃ c', (a.exchange σ).build id = .ok c' ∧ c'.isDelayed = c.isDelayed ∧
      ((∃ e, c.compile (Library.ofCommands cs).runner site = .error e ∧
          c'.compile (Library.ofCommands (cs.map (Command.exchange σ))).runner site = .error e) ∨
        ∃ d d', c.compile (Library.ofCommands cs).runner site = .ok d ∧
          c'.compile (Library.ofCommands (cs.map (Command.exchange σ))).runner site = .ok d' ∧
          d'.text = d.text ∧
          d'.parameters.map (·.name) = d.parameters.map (·.name) ∧
          (∀ argument, d'.indexOf argument = d.indexOf argument) ∧
          d'.parameters.map (·.source) = d.parameters.map (·.source.exchange σ)) := by
  refine ⟨c.exchange σ, ?_, c.isDelayed_exchange, ?_⟩
  · rw [a.build_exchange, h]
    rfl
  · rw [Command.compile_exchange (Library.runner_corresponds cs)]
    cases c.compile (Library.ofCommands cs).runner site with
    | error e => exact .inl ⟨e, rfl, rfl⟩
    | ok d =>
      refine .inr ⟨d, d.exchange σ, rfl, rfl, rfl, ?_, d.indexOf_exchange, ?_⟩
      · simp [Compiled.exchange, Parameter.exchange]
      · simp [Compiled.exchange, Parameter.exchange]

namespace Arena.Users

def sevens : Exchange := fun _ _ => .int 7

/-- With seven in the place of both values the text of two nested filters stays as it is. -/
theorem nested_text_with_sevens : ∃ inner outer outer', (byId one).build 1 = .ok inner ∧
    nested.build 1 = .ok outer ∧ (nested.exchange sevens).build 1 = .ok outer' ∧
    ∃ d d', outer.compile (Library.ofCommands [inner, outer]).runner [] = .ok d ∧
      outer'.compile (Library.ofCommands ([inner, outer].map (Command.exchange sevens))).runner [] =
        .ok d' ∧
      d'.text = d.text ∧
      d'.parameters.map (·.source) = d.parameters.map (·.source.exchange sevens) := by
  obtain ⟨inner, outer, hinner, houter, -, hbuilt⟩ := nested_built
  obtain ⟨d, hd, -⟩ := hbuilt.compile (i := 1) rfl []
  obtain ⟨outer', houter', -, ⟨e, he, -⟩ | ⟨d₁, d', hd₁, hd', htext, -, -, hsources⟩⟩ :=
    text_without_values houter sevens [inner, outer] []
  · rw [hd] at he
    cases he
  · exact ⟨inner, outer, outer', hinner, houter, houter', d₁, d', hd₁, hd', htext, hsources⟩

end Arena.Users

end DeclarativeSql
