import DeclarativeSql.Code.Command

/-!
# Scripts

A script is code as a list of steps that write to a buffer. Scripts may ask for other scripts; one
that asks for itself is endless and fails.
-/
namespace DeclarativeSql

inductive ScriptStep
  | text (token : String)
  | source (source : ParameterSource)
  /-- A value that is made anew on every run. -/
  | fresh (value : Value)
  | code (id : CodeId)
  /-- The text that a command has at the time of the run. -/
  | command (command : Command)
  | compiled (text : String) (parameters : List Parameter)
  | refuse (what : String)

abbrev Script := List ScriptStep

namespace ScriptStep

def write (r : CodeRunner) (site : Site) : ScriptStep → CodeBuffer → Written
  | text token, b => (.ok (), b.append token)
  | source s, b => (.ok (), b.appendSource s)
  | fresh v, b => (.ok (), b.appendSource (.value ⟨site⟩ v))
  | code id, b => (.ok (), b.appendOpen (.code id))
  | command c, b => c.writeTo r site b
  | compiled s parameters, b => b.appendCompiled s parameters
  | refuse what, b => (.error (.unsupportedExpression what), b)

end ScriptStep

/-- Runs the steps up to the first failure. Their sites count up from `n`. -/
def Script.writeFrom (r : CodeRunner) (site : Site) : Script → (n : Nat) → CodeBuffer → Written
  | [], _, b => (.ok (), b)
  | s :: rest, n, b =>
    match s.write r (n :: site) b with
    | (.error e, b) => (.error e, b)
    | (.ok (), b) => writeFrom r site rest (n + 1) b

/-- The scripts by the index of their code. -/
structure Library where
  scripts : List Script

namespace Library

def script (l : Library) (id : CodeId) : Script := (l.scripts[id.index]?).getD []

/-- Replaces a script, or adds one; scripts between the last one and a new one are empty. -/
def set (l : Library) (id : CodeId) (s : Script) : Library :=
  let added := List.replicate (id.index + 1 - l.scripts.length) []
  ⟨(l.scripts ++ added).set id.index s⟩

/-- Runs scripts that ask for others at most `depth` levels deep. -/
def runnerOfDepth (l : Library) : (depth : Nat) → CodeRunner
  | 0 => ⟨fun _ _ b => (.error .endlessCode, b), fun _ _ => .error .endlessCode⟩
  | depth + 1 =>
    let below := l.runnerOfDepth depth
    ⟨fun id site b => (l.script id).writeFrom below site 0 b, fun site b => b.compile below site⟩

/-- Deeper than there are scripts, one of them asks for itself. -/
def runner (l : Library) : CodeRunner := l.runnerOfDepth (l.scripts.length + 1)

def write (l : Library) (site : Site) (s : Script) (b : CodeBuffer) : Written :=
  s.writeFrom l.runner site 0 b

end Library

end DeclarativeSql
