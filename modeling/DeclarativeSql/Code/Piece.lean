import DeclarativeSql.Code.Command

/-!
# Pieces

What an expression or a statement is made of, in the order of its text.
-/
namespace DeclarativeSql

inductive Piece
  | text (token : String)
  | source (source : ParameterSource)
  /-- A command inside parentheses, without its terminator. -/
  | command (command : Command)
  | code (id : CodeId)

/-- The pieces of something that may have no text. The first part without a text decides. -/
abbrev Pieces := Except ConstructionError (List Piece)

namespace Piece

/-- A command as a piece. A settled text must come with a parameter for each of its
placeholders. -/
def ofCommand (c : Command) : Except ConstructionError Piece :=
  match c with
  | .immediate compiled =>
    match compiled.unknownPlaceholder? with
    | some name => .error (.unknownArgument name)
    | none => .ok (command c)
  | .delayed _ => .ok (command c)

/-- A comma between each two of the lists. -/
def separated : List (List Piece) → List Piece
  | [] => []
  | [part] => part
  | part :: rest => part ++ text "," :: separated rest

/-- A command with open parts stays open. -/
def write : Piece → CodeBuffer → Written
  | text token, b => (.ok (), b.append token)
  | source s, b => (.ok (), b.appendSource s)
  | command (.immediate c), b => b.appendCompiled c.body c.parameters
  | command (.delayed c), b => (.ok (), b.appendOpen (.embedded c.segments c.parameters))
  | code id, b => (.ok (), b.appendOpen (.code id))

/-- Writes pieces up to the first that fails. -/
def writeAll : List Piece → CodeBuffer → Written
  | [], b => (.ok (), b)
  | p :: rest, b =>
    match p.write b with
    | (.error e, b) => (.error e, b)
    | (.ok (), b) => writeAll rest b

/-- All pieces in an empty buffer. -/
def buffer (pieces : List Piece) : Except ConstructionError CodeBuffer :=
  match writeAll pieces .empty with
  | (.error e, _) => .error e
  | (.ok (), b) => .ok b

end Piece

end DeclarativeSql
