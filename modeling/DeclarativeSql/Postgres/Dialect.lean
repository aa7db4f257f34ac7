import DeclarativeSql.Migration.Dialect
import DeclarativeSql.Postgres.TypeName

/-!
# The dialect of the server

Names of tables, columns and constraints are quoted on request, names of roles and databases always.
-/
namespace DeclarativeSql.Postgres

def dialect (quoted : Bool) : Dialect where
  title := "postgresql"
  name s := if quoted then Quoted.identifier s else s
  globalName := Quoted.identifier
  typeName serial t := t.postgresName serial

end DeclarativeSql.Postgres
