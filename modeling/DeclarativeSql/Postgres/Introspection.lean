import DeclarativeSql.Connection
import DeclarativeSql.Postgres.Catalog
import DeclarativeSql.Text.Placeholder

/-!
# Reading the catalogue

The three queries that describe a schema. Every column of them is cast to text, and the schema is
their only parameter.
-/
namespace DeclarativeSql.Postgres

namespace CatalogQuery

/-- In the order in which they are asked. -/
def all : List CatalogQuery := [columns, constraints, indexes]

def sql : CatalogQuery → String
  | columns =>
    "SELECT c.table_name::text, c.column_name::text, c.udt_name::text, c.is_nullable::text, " ++
    "c.column_default::text FROM information_schema.columns c " ++
    "JOIN information_schema.tables t ON t.table_schema = c.table_schema " ++
    "AND t.table_name = c.table_name " ++
    "WHERE c.table_schema = @p0 AND t.table_type = 'BASE TABLE' " ++
    "ORDER BY c.table_name, c.ordinal_position"
  | constraints =>
    "SELECT tc.constraint_type::text, tc.table_name::text, tc.constraint_name::text, " ++
    "k.column_name::text FROM information_schema.table_constraints tc " ++
    "JOIN information_schema.key_column_usage k ON k.constraint_schema = tc.constraint_schema " ++
    "AND k.constraint_name = tc.constraint_name AND k.table_name = tc.table_name " ++
    "WHERE tc.table_schema = @p0 AND tc.constraint_type IN ('PRIMARY KEY', 'UNIQUE') " ++
    "ORDER BY tc.table_name, tc.constraint_name, k.ordinal_position"
  | indexes =>
    "SELECT t.relname::text, i.relname::text, am.amname::text, a.attname::text " ++
    "FROM pg_index x JOIN pg_class t ON t.oid = x.indrelid " ++
    "JOIN pg_class i ON i.oid = x.indexrelid " ++
    "JOIN pg_namespace n ON n.oid = t.relnamespace JOIN pg_am am ON am.oid = i.relam " ++
    "CROSS JOIN LATERAL unnest(x.indkey::int2[]) WITH ORDINALITY AS k(attnum, ord) " ++
    "JOIN pg_attribute a ON a.attrelid = t.oid AND a.attnum = k.attnum " ++
    "WHERE n.nspname = @p0 AND NOT x.indisprimary " ++
    "AND NOT EXISTS (SELECT 1 FROM pg_constraint c WHERE c.conindid = x.indexrelid) " ++
    "ORDER BY t.relname, i.relname, k.ord"

end CatalogQuery

structure Introspector where
  database : String
  schema : String

namespace Introspector

def defaultSchema : String := "public"

def parameters (i : Introspector) : List BoundParameter := [⟨placeholderName 0, .text i.schema⟩]

variable {σ : Type} (i : Introspector) (connection : Connection σ)

/-- All rows of one query. -/
def ask (query : CatalogQuery) (state : σ) : Except Error (List Row) × σ :=
  let (cursor, state) := connection.query query.sql i.parameters state
  (cursor.collect, state)

/-- Asks the three queries, up to the first failure. -/
def readRows (state : σ) : Except Error CatalogRows × σ :=
  match connection.createCommand state with
  | (.error e, state) => (.error (.driver e), state)
  | (.ok (), state) =>
    match i.ask connection .columns state with
    | (.error e, state) => (.error e, state)
    | (.ok columns, state) =>
      match i.ask connection .constraints state with
      | (.error e, state) => (.error e, state)
      | (.ok constraints, state) =>
        match i.ask connection .indexes state with
        | (.error e, state) => (.error e, state)
        | (.ok indexes, state) => (.ok ⟨columns, constraints, indexes⟩, state)

/-- The schema as it is now. -/
def readSchema (first : TableId) (state : σ) : Except CatalogError Database × σ :=
  match i.readRows connection state with
  | (.error e, state) => (.error (.core e), state)
  | (.ok rows, state) => (rows.assemble first i.database, state)

end Introspector

end DeclarativeSql.Postgres
