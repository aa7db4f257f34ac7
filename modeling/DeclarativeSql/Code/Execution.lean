import DeclarativeSql.Code.Command
import DeclarativeSql.Connection

/-!
# Executing commands

Each argument of a command is bound to a value, then the text is sent with all values in the order
of its parameters.
-/
namespace DeclarativeSql

/-- Values for arguments. The first one given for an argument counts. -/
abbrev Bindings := List (Argument × Value)

def Bindings.value? (bindings : Bindings) (a : Argument) : Option Value :=
  (bindings.find? (·.1.id == a.id)).map (·.2)

namespace Compiled

/-- The position of an argument among the parameters. -/
def indexOf (c : Compiled) (a : Argument) : Except ConstructionError Nat :=
  match c.parameters.findIdx? (·.source.id == .argument a.id) with
  | some i => .ok i
  | none => .error (.unknownArgument a.name)

def bindParameter (bindings : Bindings) (p : Parameter) :
    Except ConstructionError BoundParameter :=
  match p.source with
  | .value _ v => .ok ⟨p.name, v⟩
  | .argument a =>
    match bindings.value? a with
    | some v => .ok ⟨p.name, v⟩
    | none => .error (.unboundArgument a.name)

/-- The values of all parameters, in order. -/
def bind (c : Compiled) (bindings : Bindings) : Except ConstructionError (List BoundParameter) :=
  c.parameters.mapM (bindParameter bindings)

variable {σ : Type}

/-- Binds the parameters and prepares the connection. -/
def prepare (c : Compiled) (connection : Connection σ) (bindings : Bindings) (state : σ) :
    Except Error (List BoundParameter) × σ :=
  match c.bind bindings with
  | .error e => (.error (.construction e), state)
  | .ok bound =>
    match connection.createCommand state with
    | (.error e, state) => (.error (.driver e), state)
    | (.ok (), state) => (.ok bound, state)

/-- Executes a statement and counts the affected rows. -/
def execute (c : Compiled) (connection : Connection σ) (bindings : Bindings) (state : σ) :
    Except Error Nat × σ :=
  match c.prepare connection bindings state with
  | (.error e, state) => (.error e, state)
  | (.ok bound, state) =>
    match connection.execute c.text bound state with
    | (.error e, state) => (.error (.driver e), state)
    | (.ok affected, state) => (.ok affected, state)

/-- Executes a query and reads its rows by `read`. -/
def queryWith {α : Type} (read : Row → Except Error α) (c : Compiled) (connection : Connection σ)
    (bindings : Bindings) (state : σ) : Except Error (List α) × σ :=
  match c.prepare connection bindings state with
  | (.error e, state) => (.error e, state)
  | (.ok bound, state) =>
    let (cursor, state) := connection.query c.text bound state
    (cursor.mapRows read, state)

def query (c : Compiled) (connection : Connection σ) (bindings : Bindings) (state : σ) :
    Except Error (List Row) × σ :=
  c.queryWith .ok connection bindings state

end Compiled

namespace Command

variable (c : Command) (r : CodeRunner) (site : Site)

/-- The position of an argument among the parameters of the current text. -/
def indexOf (a : Argument) : Except ConstructionError Nat := do
  (← c.compile r site).indexOf a

/-- The current text, and the values of its parameters. -/
def bind (bindings : Bindings) : Except ConstructionError (String × List BoundParameter) := do
  let current ← c.compile r site
  return (current.text, ← current.bind bindings)

end Command

end DeclarativeSql
