import DeclarativeSql.Query.Node

/-!
# Query trees

The nodes of all trees below one owner, at position zero. Nodes can be made on their own and
attached later, in any order. A source that an expression uses as a subquery moves below the node of
that expression. Tables are registered with the owner; their positions are their aliases.
-/
namespace DeclarativeSql

structure Arena where
  tables : List Table
  nodes : List Node

namespace Arena

def ownerId : NodeId := 0

def empty : Arena := ⟨[], [⟨.owner, none, []⟩]⟩

def size (a : Arena) : Nat := a.nodes.length

def node? (a : Arena) (id : NodeId) : Option Node := a.nodes[id]?

def node (a : Arena) (id : NodeId) : Except ConstructionError Node :=
  match a.node? id with
  | some n => .ok n
  | none => .error (.detachedNode id)

def parent? (a : Arena) (id : NodeId) : Option NodeId := (a.node? id).bind (·.parent)

/-- The kinds of the nodes in a list, in order. -/
def kinds (a : Arena) (ids : List NodeId) : List NodeKind :=
  ids.filterMap fun id => (a.node? id).map (·.kind)

/-- A node and its ancestors, nearest first, at most `n` of them. -/
def lineageUpTo (a : Arena) : (n : Nat) → NodeId → List NodeId
  | 0, _ => []
  | n + 1, id =>
    match a.parent? id with
    | some parent => id :: a.lineageUpTo n parent
    | none => [id]

/-- A node and its ancestors, nearest first. No tree is deeper than there are nodes. -/
def lineage (a : Arena) (id : NodeId) : List NodeId := a.lineageUpTo a.size id

/-- The root above a node. Only the owner is one; other nodes on top are detached. -/
def ownerOf (a : Arena) (id : NodeId) : Except ConstructionError NodeId :=
  if ownerId ∈ a.lineage id then .ok ownerId else .error (.detachedNode id)

def aliasName (position : Nat) : String := "t" ++ toString position

def alias? (a : Arena) (table : TableId) : Option String :=
  (a.tables.findIdx? (·.id == table)).map aliasName

def update (a : Arena) (id : NodeId) (f : Node → Node) : Arena :=
  { a with nodes := a.nodes.modify id f }

/-- A table is registered once. -/
def register (a : Arena) (t : Table) : Arena :=
  if (a.alias? t.id).isSome then a else { a with tables := a.tables ++ [t] }

def registerAll (a : Arena) (t : Option Table) : Arena :=
  match t with
  | some t => a.register t
  | none => a

/-- A new node without a parent, at the end. -/
def push (a : Arena) (kind : NodeKind) : Arena :=
  { a with nodes := a.nodes ++ [⟨kind, none, []⟩] }

/-- Takes a node out of the children of its parent. -/
def cut (a : Arena) (id : NodeId) : Arena :=
  match a.parent? id with
  | none => a
  | some parent =>
    (a.update parent fun n => { n with children := n.children.filter (· ≠ id) }).update id
      fun n => { n with parent := none }

/-- Puts a node at the end of the children of another one. -/
def graft (a : Arena) (parent child : NodeId) : Arena :=
  (a.update child fun n => { n with parent := some parent }).update parent
    fun n => { n with children := n.children ++ [child] }

/-- Another child takes the slot already. -/
def slotIsTaken (a : Arena) (parent : Node) (slot : ClauseSlot) (except : Option NodeId) : Bool :=
  (a.kinds (parent.children.filter (some · ≠ except))).any
    fun k => parent.kind.sort.slot? k.sort = some slot

/-- A list of values fits the insert above it. -/
def checkCount (parent child : NodeKind) : Except ConstructionError Unit :=
  match parent, child with
  | .insert target, .values items => NodeKind.checkValueCount target items.length
  | _, _ => .ok ()

def checkSlot (a : Arena) (parent : Node) (child : NodeKind) (id : Option NodeId) :
    Except ConstructionError Unit :=
  match parent.kind.sort.slot? child.sort with
  | some slot =>
    if a.slotIsTaken parent slot id then .error (.duplicateClause slot parent.kind.sort) else .ok ()
  | none => .ok ()

/-- A node may hang below another one: its sort is accepted, its values are as many as asked for,
and its slot is free. The node itself, if it exists, does not stand in its own way. -/
def checkPlace (a : Arena) (parent : NodeId) (child : NodeKind) (id : Option NodeId) :
    Except ConstructionError Unit :=
  match a.node parent with
  | .error e => .error e
  | .ok p =>
    if !p.kind.sort.accepts child.sort then .error (.invalidChild child.sort p.kind.sort)
    else
      match checkCount p.kind child with
      | .error e => .error e
      | .ok () => a.checkSlot p child id

/-- No node may hang below itself. -/
def checkCycle (a : Arena) (parent : NodeId) (child : NodeId) : Except ConstructionError Unit :=
  match a.node? parent, a.node? child with
  | some p, some c =>
    if child ∈ a.lineage parent then .error (.invalidChild c.kind.sort p.kind.sort) else .ok ()
  | _, _ => .ok ()

def checkAttach (a : Arena) (parent child : NodeId) : Except ConstructionError Unit :=
  match a.node child with
  | .error e => .error e
  | .ok c =>
    match a.checkPlace parent c.kind (some child) with
    | .error e => .error e
    | .ok () => a.checkCycle parent child

/-- Moves a node below another one. -/
def attach (a : Arena) (parent child : NodeId) : Except ConstructionError Unit × Arena :=
  match a.checkAttach parent child with
  | .error e => (.error e, a)
  | .ok () => (.ok (), (a.cut child).graft parent child)

def detach (a : Arena) (id : NodeId) : Except ConstructionError Unit × Arena :=
  match a.node id with
  | .error e => (.error e, a)
  | .ok _ => (.ok (), a.cut id)

/-- Attaches one node after the other, up to the first that is refused. -/
def attachAll (a : Arena) (parent : NodeId) : List NodeId → Except ConstructionError Unit × Arena
  | [] => (.ok (), a)
  | child :: rest =>
    match a.attach parent child with
    | (.error e, a) => (.error e, a)
    | (.ok (), a) => a.attachAll parent rest

/-- Subqueries are sources of the same arena. -/
def checkSubqueries (a : Arena) (kind : NodeKind) : List NodeId → Except ConstructionError Unit
  | [] => .ok ()
  | id :: rest =>
    match a.node id with
    | .error e => .error e
    | .ok n =>
      if n.kind.sort = .source then a.checkSubqueries kind rest
      else .error (.invalidChild n.kind.sort kind.sort)

/-- An insert has no subqueries in its guard and names columns of its own table. -/
def checkTarget (subqueries : List NodeId) (kind : NodeKind) : Except ConstructionError Unit :=
  match kind with
  | .owner => .error (.invalidChild .owner .owner)
  | .insert _ =>
    if subqueries.isEmpty then .ok ()
    else .error (.unsupportedExpression "subquery in an insert guard")
  | _ => .ok ()

def checkColumns (kind : NodeKind) : Except ConstructionError Unit :=
  match kind with
  | .insert target =>
    match target.columns.find? fun c => !target.table.owns c with
    | some stranger => .error (.missingColumnBinding target.table.name stranger.member)
    | none => .ok ()
  | _ => .ok ()

def checkCreate (a : Arena) (kind : NodeKind) : Except ConstructionError Unit :=
  match checkTarget kind.subqueries kind with
  | .error e => .error e
  | .ok () =>
    match a.checkSubqueries kind kind.subqueries with
    | .error e => .error e
    | .ok () => checkColumns kind

/-- A detached node, with the subqueries of its expressions below it. -/
def create (a : Arena) (kind : NodeKind) : Except ConstructionError NodeId × Arena :=
  match a.checkCreate kind with
  | .error e => (.error e, a)
  | .ok () =>
    let id := a.size
    match ((a.registerAll kind.table?).push kind).attachAll id kind.subqueries with
    | (.error e, a) => (.error e, a)
    | (.ok (), a) => (.ok id, a)

/-- A new node below `parent`. If the node can not be attached after its subqueries have moved, it
stays, detached, with the subqueries below it. -/
def createBelow (a : Arena) (parent : NodeId) (kind : NodeKind) :
    Except ConstructionError NodeId × Arena :=
  match a.checkPlace parent kind none with
  | .error e => (.error e, a)
  | .ok () =>
    match a.create kind with
    | (.error e, a) => (.error e, a)
    | (.ok id, a) =>
      match a.attach parent id with
      | (.error e, a) => (.error e, a)
      | (.ok (), a) => (.ok id, a)

/-- A source below the owner. -/
def addSource (a : Arena) (t : Table) : NodeId × Arena :=
  let id := a.size
  (id, ((a.register t).push (.source t)).graft ownerId id)

/-- Everything that can be done to the trees. -/
inductive Operation
  | source (table : Table)
  | create (kind : NodeKind)
  | createBelow (parent : NodeId) (kind : NodeKind)
  | attach (parent child : NodeId)
  | detach (id : NodeId)

namespace Operation

def join (source : NodeId) (kind : JoinKind) (table : Table) (on : Expr) : Operation :=
  createBelow source (.join kind table on)

def filter (source : NodeId) (condition : Expr) : Operation :=
  createBelow source (.filter condition)

def groupBy (source : NodeId) (keys : List Expr) : Operation := createBelow source (.groupBy keys)

def orderBy (source : NodeId) (items : List OrderItem) : Operation :=
  createBelow source (.orderBy items)

def limit (source : NodeId) (count : Expr) : Operation := createBelow source (.limit count)

def select (source : NodeId) (items : List Expr) : Operation := createBelow source (.select items)

def insert (target : InsertTarget) : Operation := createBelow ownerId (.insert target)

def values (insert : NodeId) (items : List Expr) : Operation := createBelow insert (.values items)

end Operation

/-- The new node, if one is made, and the trees afterwards. -/
def apply (a : Arena) : Operation → Except ConstructionError (Option NodeId) × Arena
  | .source t =>
    let (id, a) := a.addSource t
    (.ok (some id), a)
  | .create kind =>
    let (result, a) := a.create kind
    (result.map some, a)
  | .createBelow parent kind =>
    let (result, a) := a.createBelow parent kind
    (result.map some, a)
  | .attach parent child =>
    let (result, a) := a.attach parent child
    (result.map fun _ => none, a)
  | .detach id =>
    let (result, a) := a.detach id
    (result.map fun _ => none, a)

/-- Applies operations one after the other, failing ones included. -/
def run (a : Arena) (operations : List Operation) : Arena :=
  operations.foldl (fun a op => (a.apply op).2) a

end Arena

end DeclarativeSql
