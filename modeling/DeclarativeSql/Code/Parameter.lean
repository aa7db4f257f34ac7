import DeclarativeSql.Value.Basic
import DeclarativeSql.Text.Placeholder

/-!
# Parameters

A command refers to values and arguments by parameters `@p0`, `@p1`, and so on. Values and arguments
have an identity: one that is used twice takes one parameter, two equal ones take two.
-/
namespace DeclarativeSql

/-- Where a value was made. Values that are made while code runs extend the path of the run. -/
structure ValueId where
  path : List Nat
  deriving DecidableEq

/-- A place that is filled when the command is executed. The name is for messages only. -/
structure Argument where
  id : Nat
  name : String
  deriving DecidableEq

/-- What a parameter stands for. -/
inductive ParameterSource
  | value (id : ValueId) (value : Value)
  | argument (argument : Argument)

inductive SourceId
  | value (id : ValueId)
  | argument (id : Nat)
  deriving DecidableEq

namespace ParameterSource

def id : ParameterSource → SourceId
  | value id _ => .value id
  | argument a => .argument a.id

end ParameterSource

structure Parameter where
  name : String
  source : ParameterSource

namespace Parameter

/-- The parameter with this name. -/
def named? (parameters : List Parameter) (name : String) : Option Parameter :=
  parameters.find? (·.name == name)

/-- The parameter that stands for a source. -/
def standingFor? (parameters : List Parameter) (id : SourceId) : Option Parameter :=
  parameters.find? (·.source.id == id)

/-- The name of the source's parameter, which comes last if it is new. -/
def register (parameters : List Parameter) (source : ParameterSource) :
    String × List Parameter :=
  match standingFor? parameters source.id with
  | some p => (p.name, parameters)
  | none =>
    let name := placeholderName parameters.length
    (name, parameters ++ [⟨name, source⟩])

end Parameter

end DeclarativeSql
