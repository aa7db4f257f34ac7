import DeclarativeSql.Proofs.Catalog.Assembly
import DeclarativeSql.Proofs.Schema.Document
import DeclarativeSql.Proofs.Schema.Draft

/-!
# Constraints over columns of their own table

A database is declared, loaded from a file or put together from catalogue rows. Each way refuses
something else, and planning relies on what all of them make sure of: a constraint lists columns of
its own table.
-/
namespace DeclarativeSql

theorem SqlType.supportsSerial_iff {t : SqlType} :
    t.supportsSerial = true ↔ t = .scalar .int32 ∨ t = .scalar .int64 := by
  cases t with
  | array s => simp [supportsSerial]
  | scalar s => cases s <;> simp [supportsSerial, Scalar.supportsSerial]

namespace Database

theorem ListsFirst.constraintsAreLocal {db : Database} (h : db.ListsFirst) :
    db.constraintsAreLocal := by
  intro t ht
  have hlisted : ∀ d ∈ t.listedColumns, d ∈ t.definitions := fun d hd =>
    List.mem_of_find?_eq_some (h t ht d hd)
  refine ⟨fun k hk d hd => ?_, fun i hi d hd => ?_, fun k hk d hd => ?_⟩
  · exact hlisted d (t.mem_listedColumns_of_primaryKey hk hd)
  · exact hlisted d (t.mem_listedColumns_of_index hi hd)
  · exact hlisted d (t.mem_listedColumns_of_unique hk hd)

/-- What holds of a database that was declared. -/
structure IsDeclared (db : Database) : Prop where
  constraintsAreLocal : db.constraintsAreLocal
  names : (db.tables.map Table.name).Nodup
  members : ∀ t ∈ db.tables, (t.columns.map Column.member).Nodup
  columnNames : ∀ t ∈ db.tables, (t.columns.map Column.name).Nodup
  serial : ∀ t ∈ db.tables, ∀ d ∈ t.definitions, d.isSerial = true →
    d.sqlType = .scalar .int32 ∨ d.sqlType = .scalar .int64

/-- What holds of a database that was put together from rows. -/
structure IsAssembled (db : Database) : Prop where
  constraintsAreLocal : db.constraintsAreLocal
  names : (db.tables.map Table.name).Nodup
  columns : ∀ t ∈ db.tables, t.columns ≠ []
  primaryKey : ∀ t ∈ db.tables, ∀ k ∈ t.primaryKey, k.columns ≠ []
  indices : ∀ t ∈ db.tables, ∀ i ∈ t.indices, i.columns ≠ []
  uniques : ∀ t ∈ db.tables, ∀ k ∈ t.uniques, k.columns ≠ []

end Database

theorem SchemaBuilder.IsBuilt.isDeclared {b : SchemaBuilder} (h : b.IsBuilt) :
    b.build.IsDeclared where
  constraintsAreLocal := h.listsFirst.constraintsAreLocal
  names := h.names
  members := by
    intro t ht
    obtain ⟨draft, hdraft, rfl⟩ := h.exists_draft t ht
    exact hdraft.members
  columnNames := by
    intro t ht
    obtain ⟨draft, hdraft, rfl⟩ := h.exists_draft t ht
    exact hdraft.names
  serial := by
    intro t ht d hd hserial
    obtain ⟨draft, hdraft, rfl⟩ := h.exists_draft t ht
    obtain ⟨c, hc, rfl⟩ := List.mem_map.mp hd
    have hvalid := ColumnDef.validate_eq_ok_iff.mp (hdraft.valid c hc)
    exact SqlType.supportsSerial_iff.mp (hvalid hserial)

namespace Postgres

theorem TableParts.IsFilled.table {t : TableParts} (h : t.IsFilled) (id : TableId) :
    (t.table id).columns ≠ [] := by
  simpa [TableParts.table, Table.withConstraints, Table.bindAll] using h.columns

theorem CatalogRows.isAssembled {rows : CatalogRows} {first : TableId} {name : String}
    {db : Database} (h : rows.assemble first name = .ok db) : db.IsAssembled := by
  obtain ⟨parts, hparts, hnames, htables⟩ := exists_tableParts_of_assemble h
  have hput := isPutTogether_tableParts hparts
  refine ⟨(listsFirst_of_assemble h).constraintsAreLocal, hnames ▸ hput.names, ?_, ?_, ?_, ?_⟩ <;>
    intro t ht <;> obtain ⟨p, hp, id, rfl⟩ := htables t ht
  · exact (hput.isFilled p hp).table id
  · exact (hput.isFilled p hp).primaryKey
  · exact (hput.isFilled p hp).indices
  · exact (hput.isFilled p hp).uniques

end Postgres

/-- However a database came about, its constraints list columns of their own table. A declaration
also tells tables, members and columns apart and keeps numbering to types that can count; rows give
tables and constraints with columns only. -/
theorem Database.constraints_list_own_columns :
    (∀ b : SchemaBuilder, b.IsBuilt → b.build.IsDeclared) ∧
    (∀ (first : TableId) (content : Option String) (db : Database),
      SchemaFile.load first content = .ok db → db.constraintsAreLocal) ∧
    ∀ (rows : Postgres.CatalogRows) (first : TableId) (name : String) (db : Database),
      rows.assemble first name = .ok db → db.IsAssembled :=
  ⟨fun _ h => h.isDeclared, fun _ _ _ h => (SchemaFile.listsFirst_of_load h).constraintsAreLocal,
    fun _ _ _ _ h => Postgres.CatalogRows.isAssembled h⟩

namespace Memberships

/-- A member of two tiers and the key, and a declaration that goes on after a refused step. -/
def steps : List DeclareStep :=
  [.column "Id" "id" (.scalar .int64) (.primaryKey ||| .serial),
    .column "Id" "other" (.scalar .text) .empty,
    .column "Title" "title" (.scalar .text) (.primaryKey ||| .indexTier 2 ||| .uniqueTier 1)]

def builder : SchemaBuilder :=
  let b : SchemaBuilder := .new "app" ⟨0⟩
  b.leave (TableDraft.attempt ⟨b.registry, b.next, "posts", []⟩ steps)

/-- Rows of two tables in turn, two constraints of one name and one of a table without columns. -/
def rows : Postgres.CatalogRows where
  columns := [["posts", "id", "int8", "NO"], ["tags", "tag", "text", "YES"],
    ["posts", "title", "text", "YES"]].map fun texts => ⟨texts.map .text ++ [.null]⟩
  constraints := [["PRIMARY KEY", "posts", "key", "title"], ["PRIMARY KEY", "posts", "key", "id"],
    ["UNIQUE", "tags", "key", "tag"], ["UNIQUE", "lost", "key", "id"]].map
      fun texts => ⟨texts.map .text⟩
  indexes := [⟨["posts", "by_title", "gin", "title"].map .text⟩]

theorem own_columns_listed :
    (builder.IsBuilt ∧ builder.build.IsDeclared) ∧
    (∃ db, SchemaFile.load ⟨7⟩ (some (SchemaFile.render builder.build)) = .ok db ∧
      db.constraintsAreLocal) ∧
    ∃ db, rows.assemble ⟨3⟩ "app" = .ok db ∧ db.IsAssembled := by
  have hbuilt : builder.IsBuilt := .declare steps (.new "app" ⟨0⟩) rfl
  have hload := SchemaFile.load_render_of_isBuilt hbuilt ⟨7⟩
  obtain ⟨db, hdb⟩ : ∃ db, rows.assemble ⟨3⟩ "app" = .ok db := ⟨_, rfl⟩
  exact ⟨⟨hbuilt, Database.constraints_list_own_columns.1 builder hbuilt⟩,
    ⟨_, hload, Database.constraints_list_own_columns.2.1 _ _ _ hload⟩,
    db, hdb, Database.constraints_list_own_columns.2.2 rows _ _ db hdb⟩

end Memberships

end DeclarativeSql
