import DeclarativeSql.Text.SourceToken

/-!
# Type texts

The text of a field's type without blanks and comments. Lifetimes come first among the arguments of
a type.
-/
namespace DeclarativeSql.TypeText

/-- What an argument of a type is so far. -/
inductive Argument
  | empty
  | lifetime (text : List Char)
  | other (text : List Char)

/-- Text between brackets that is not complete. Of the arguments of a type, lifetimes are kept apart
from the others. -/
structure Group where
  opening : List Char
  isArguments : Bool
  lifetimes : List Char
  others : List Char
  argument : Argument

namespace Argument

def text : Argument → List Char
  | empty => []
  | lifetime s | other s => s

def add (a : Argument) (s : List Char) : Argument := other (a.text ++ s)

end Argument

namespace Group

def new (opening : List Char) (isArguments : Bool) : Group := ⟨opening, isArguments, [], [], .empty⟩

def add (g : Group) (s : List Char) : Group := { g with argument := g.argument.add s }

/-- The end of an argument, or a comma like any other symbol. -/
def comma (g : Group) : Group :=
  if !g.isArguments then g.add [',']
  else
    match g.argument with
    | .lifetime s => { g with lifetimes := g.lifetimes ++ s ++ [','], argument := .empty }
    | a => { g with others := g.others ++ a.text ++ [','], argument := .empty }

def text (g : Group) : List Char :=
  g.opening ++
    match g.argument with
    | .lifetime s =>
      g.lifetimes ++ s ++ (if g.others.isEmpty then [] else [',']) ++ g.others
    | a => g.lifetimes ++ g.others ++ a.text

end Group

/-- The groups around the place that is reached, the innermost first, and whether a minus was the
last symbol. -/
structure Progress where
  current : Group
  outer : List Group
  afterMinus : Bool

namespace Progress

def start : Progress := ⟨.new [] false, [], false⟩

def enter (p : Progress) (opening : List Char) (isArguments : Bool) : Progress :=
  ⟨.new opening isArguments, p.current :: p.outer, false⟩

/-- Closes the current group. -/
def leave (p : Progress) (closing : List Char) : Progress :=
  match p.outer with
  | [] => { p with current := p.current.add closing, afterMinus := false }
  | g :: outer => ⟨g.add (p.current.text ++ closing), outer, false⟩

def add (p : Progress) (t : SourceToken) : Progress :=
  let spelling := t.spelling.filter (· != ' ')
  match t.kind, spelling with
  | .symbol, ['<'] => p.enter spelling true
  | .symbol, ['('] | .symbol, ['['] | .symbol, ['\x7b'] => p.enter spelling false
  | .symbol, [')'] | .symbol, [']'] | .symbol, ['\x7d'] => p.leave spelling
  | .symbol, ['>'] =>
    if p.current.isArguments && !p.afterMinus then p.leave spelling
    else { p with current := p.current.add spelling, afterMinus := false }
  | .symbol, [','] => { p with current := p.current.comma, afterMinus := false }
  | .lifetime, _ =>
    let argument := match p.current.argument with
      | .empty => Argument.lifetime spelling
      | a => a.add spelling
    { p with current := { p.current with argument }, afterMinus := false }
  | _, _ => { p with current := p.current.add spelling, afterMinus := spelling == ['-'] }

/-- The text of all groups. -/
def text (p : Progress) : List Char :=
  p.outer.foldl (fun inner g => g.text ++ inner) p.current.text

end Progress

/-- The text of a type that is spelled in a source. -/
def ofSource (source : String) : String :=
  String.ofList ((SourceToken.split source).foldl Progress.add .start).text

end DeclarativeSql.TypeText
