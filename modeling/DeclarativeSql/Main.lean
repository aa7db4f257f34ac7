import DeclarativeSql.CommandLine.Run

/-!
# The program

Reads the files that a request names, and prints what its run amounts to.
-/
namespace DeclarativeSql

/-- The files that a request reads. -/
def Request.files (r : Request) : List String :=
  match r.job with
  | .plan target current => target :: current.toList
  | _ => []

def readFile (path : String) : IO (Option String) := do
  match ← (IO.FS.readFile path).toBaseIO with
  | .ok content => return some content
  | .error _ => return none

end DeclarativeSql

open DeclarativeSql in
def main (args : List String) : IO UInt32 := do
  let paths := match Request.ofArguments args with
    | .ok r => r.files
    | .error _ => []
  let contents ← paths.mapM fun path => do return (path, ← readFile path)
  let run := Run.ofArguments args fun path => (contents.lookup path).join
  for (table, column) in run.warnings do
    IO.eprintln ("WARN column " ++ table ++ "." ++ column ++ " is replaced and loses its data")
  for line in run.output do
    IO.println line
  if let some complaint := run.complaint then
    IO.eprintln ("error: " ++ complaint)
  return run.exitCode.toUInt32
