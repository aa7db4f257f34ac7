import DeclarativeSql.Schema.Document
import DeclarativeSql.Json.Reader
import DeclarativeSql.Json.Writer
import DeclarativeSql.Migration.Error

/-!
# Schema files

A schema file holds one database as indented JSON.
-/
namespace DeclarativeSql.SchemaFile

def render (db : Database) : String := db.toJson.indented

/-- The database in the content of a file. A missing file has none. Of a text that goes wrong, the
part in front of the fault is read first, so that its own errors win. -/
def load (first : TableId) (content : Option String) : Except MigrationError Database :=
  match content with
  | none => .error .file
  | some text =>
    match Database.ofJson first (Json.read text) with
    | .ok db => .ok db
    | .error e => .error (.schemaFile e.reason?)

end DeclarativeSql.SchemaFile
