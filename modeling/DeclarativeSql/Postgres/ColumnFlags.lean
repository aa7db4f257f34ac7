import DeclarativeSql.Schema.Flags

/-!
# Flags of a catalogue column

The catalogue says whether a column may be NULL and what its default expression is. Which flags
these imply is read off their text.
-/
namespace DeclarativeSql.Postgres

/-- Case matters only for letters beyond ASCII. -/
def lowered (s : String) : List Char := s.toList.map Char.toLower

def hasInfix (part : List Char) : List Char → Bool
  | [] => part.isEmpty
  | c :: rest => part.isPrefixOf (c :: rest) || hasInfix part rest

/-- A default that takes the next number of a sequence makes the column serial. -/
def isSequence (default : List Char) : Bool := "nextval(".toList.isPrefixOf default

def isCurrentTime (default : List Char) : Bool :=
  hasInfix "current_timestamp".toList default || hasInfix "now()".toList default

def defaultFlags : Option String → ColumnFlags
  | none => .empty
  | some default =>
    let default := lowered default
    if isSequence default then .serial
    else if isCurrentTime default then .defaultNow
    else .empty

def columnFlags (isNullable : String) (default : Option String) : ColumnFlags :=
  let nullable := if lowered isNullable = "yes".toList then ColumnFlags.nullable else .empty
  nullable ||| defaultFlags default

end DeclarativeSql.Postgres
