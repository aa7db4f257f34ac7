import DeclarativeSql.Record.Row

/-!
# Connections

What a command needs of a database: a statement is run with its parameters bound, and answers with a
number of rows or with rows. A connection is described by what it does to a state of type `σ`.
-/
namespace DeclarativeSql

/-- A parameter and the value it stands for. -/
structure BoundParameter where
  name : String
  value : Value

/-- The rows that a query yields, up to a failure if there is one. -/
structure Cursor where
  rows : List Row
  failure : Option DriverError

namespace Cursor

def failed (e : DriverError) : Cursor := ⟨[], some e⟩

/-- Reads all rows. The first one that does not convert or does not arrive decides the error. -/
def mapRows {α : Type} (read : Row → Except Error α) (c : Cursor) : Except Error (List α) :=
  match c.rows.mapM read, c.failure with
  | .error e, _ => .error e
  | .ok _, some e => .error (.driver e)
  | .ok records, none => .ok records

def collect (c : Cursor) : Except Error (List Row) := c.mapRows .ok

end Cursor

structure Connection (σ : Type) where
  /-- Prepares the connection for the next statements. -/
  createCommand : σ → Except DriverError Unit × σ
  /-- Runs a statement and counts the affected rows. -/
  execute : String → List BoundParameter → σ → Except DriverError Nat × σ
  /-- Runs a query. -/
  query : String → List BoundParameter → σ → Cursor × σ

/-- A statement and the values it was sent with. -/
abbrev Sent := String × List BoundParameter

/-- Answers that are laid down before anything is sent. -/
structure PreparedAnswers where
  create : Except DriverError Unit
  affected : Except DriverError Nat
  /-- One for each query; behind the last one there are no rows. -/
  cursors : List Cursor

/-- A connection that gives prepared answers and keeps what it is sent. -/
def PreparedAnswers.connection (answers : PreparedAnswers) : Connection (List Sent) where
  createCommand sent := (answers.create, sent)
  execute text parameters sent := (answers.affected, sent ++ [(text, parameters)])
  query text parameters sent :=
    ((answers.cursors[sent.length]?).getD ⟨[], none⟩, sent ++ [(text, parameters)])

end DeclarativeSql
