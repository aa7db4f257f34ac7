import DeclarativeSql.Schema.Registry
import DeclarativeSql.Schema.Database

/-!
# Declaring a database

A table is declared by binding members to column definitions, one step after the other. All tables
of a database share one registry of definitions.
-/
namespace DeclarativeSql

/-- One step of the declaration of a table. -/
inductive DeclareStep
  /-- Binds a member to the shared definition of a column. -/
  | column (member name : String) (fieldType : FieldType) (flags : ColumnFlags)
  /-- Binds a member to a definition made elsewhere. -/
  | bind (member : String) (definition : ColumnDef)
  /-- Looks up a member bound earlier. -/
  | lookup (member : String)

/-- A table that is being declared. -/
structure TableDraft where
  registry : Registry
  id : TableId
  name : String
  columns : List Column

namespace TableDraft

/-- Members and column names are bound once each, and a serial column must be able to count. -/
def checkBind (draft : TableDraft) (member : String) (d : ColumnDef) :
    Except ConstructionError Unit :=
  if draft.columns.any (·.member == member) then .error (.duplicateColumn draft.name member)
  else if draft.columns.any (·.name == d.name) then .error (.duplicateColumn draft.name d.name)
  else d.validate

/-- A refused binding leaves the draft as it is. -/
def bind (draft : TableDraft) (member : String) (d : ColumnDef) :
    Except ConstructionError Column × TableDraft :=
  match draft.checkBind member d with
  | .error e => (.error e, draft)
  | .ok () =>
    let c : Column := ⟨d, member, draft.id, draft.name⟩
    (.ok c, { draft with columns := draft.columns ++ [c] })

/-- The definition is registered before the member is bound, and stays if the binding is refused. -/
def column (draft : TableDraft) (member name : String) (t : FieldType) (flags : ColumnFlags) :
    Except ConstructionError Column × TableDraft :=
  match draft.registry.column name t flags with
  | (.error e, registry) => (.error e, { draft with registry })
  | (.ok defined, registry) => bind { draft with registry } member defined.definition

def lookup (draft : TableDraft) (member : String) : Except ConstructionError Column :=
  match draft.columns.find? (·.member == member) with
  | some c => .ok c
  | none => .error (.missingColumnBinding draft.name member)

def step (draft : TableDraft) : DeclareStep → Except ConstructionError Column × TableDraft
  | .column member name t flags => draft.column member name t flags
  | .bind member d => draft.bind member d
  | .lookup member => (draft.lookup member, draft)

/-- Runs steps up to the first refusal. Each step before it yields a column. -/
def run (draft : TableDraft) :
    List DeclareStep → List Column × Except ConstructionError TableDraft
  | [] => ([], .ok draft)
  | s :: rest =>
    match draft.step s with
    | (.ok c, draft) =>
      let (columns, result) := draft.run rest
      (c :: columns, result)
    | (.error e, _) => ([], .error e)

def finish (draft : TableDraft) : Table := .ofColumns draft.id draft.name draft.columns

end TableDraft

/-- A database that is being declared. -/
structure SchemaBuilder where
  name : String
  registry : Registry
  tables : List Table
  /-- The identity of the next table. -/
  next : TableId

namespace SchemaBuilder

def new (name : String) (first : TableId) : SchemaBuilder := ⟨name, .empty, [], first⟩

/-- Asks the registry for a definition up front. -/
def define (b : SchemaBuilder) (name : String) (sqlType : SqlType) (flags : ColumnFlags) :
    Except ConstructionError ColumnDef × SchemaBuilder :=
  let (answer, registry) := b.registry.define name sqlType flags
  (answer.map (·.definition), { b with registry })

/-- Starts a table, whose name must be new. -/
def enter (b : SchemaBuilder) (table : String) : Except ConstructionError TableDraft :=
  if b.tables.any (·.name == table) then .error (.duplicateTable table)
  else .ok ⟨b.registry, b.next, table, []⟩

/-- Takes in a finished table. -/
def leave (b : SchemaBuilder) (draft : TableDraft) : SchemaBuilder :=
  { b with
    registry := draft.registry
    tables := b.tables ++ [draft.finish]
    next := ⟨b.next.index + 1⟩ }

def declare (b : SchemaBuilder) (table : String) (steps : List DeclareStep) :
    Except ConstructionError SchemaBuilder :=
  match b.enter table with
  | .error e => .error e
  | .ok draft =>
    match (draft.run steps).2 with
    | .error e => .error e
    | .ok draft => .ok (b.leave draft)

def build (b : SchemaBuilder) : Database := ⟨b.name, b.tables⟩

end SchemaBuilder

end DeclarativeSql
