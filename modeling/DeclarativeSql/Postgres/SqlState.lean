import DeclarativeSql.Error

/-!
# Error codes of the server
-/
namespace DeclarativeSql.Postgres

/-- Three codes are told apart, all others are one kind. -/
def errorKind (sqlState : String) : DriverErrorKind :=
  match sqlState with
  | "42P04" => .duplicateDatabase
  | "42710" => .duplicateObject
  | "23505" => .duplicateKey
  | _ => .unknown

/-- A failure is classified by its code, if it has one. -/
def driverError (sqlState : Option String) (text : String) : DriverError :=
  match sqlState with
  | some code => ⟨errorKind code, some code, text⟩
  | none => .unclassified text

end DeclarativeSql.Postgres
