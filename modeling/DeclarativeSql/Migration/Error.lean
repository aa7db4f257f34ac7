import DeclarativeSql.Error

/-!
# Errors of a migration
-/
namespace DeclarativeSql

inductive MigrationError
  /-- The schemas, the difference or the driver failed. -/
  | core (cause : Error)
  /-- A file could not be read or written. -/
  | file
  /-- A file holds no schema. The reason is given where the schema contradicts itself. -/
  | schemaFile (reason : Option String)
  deriving DecidableEq

namespace MigrationError

def driverKind? : MigrationError → Option DriverErrorKind
  | core cause => cause.driverKind?
  | _ => none

end MigrationError

end DeclarativeSql
