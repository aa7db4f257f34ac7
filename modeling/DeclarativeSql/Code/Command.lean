import DeclarativeSql.Code.Buffer

/-!
# Commands

A command whose text is settled is kept as text, any other one as its buffer. Its current text is
found by writing the segments again, in order, and by running the code in them.
-/
namespace DeclarativeSql

/-- A text and its parameters, ready to be bound. -/
structure Compiled where
  text : String
  parameters : List Parameter

namespace Compiled

/-- A statement inside another one loses its terminator. -/
def body (c : Compiled) : String :=
  match c.text.toList.getLast? with
  | some ';' => String.ofList c.text.toList.dropLast
  | _ => c.text

/-- The first placeholder in the body that no parameter belongs to. -/
def unknownPlaceholder? (c : Compiled) : Option String :=
  (TextPart.split c.body.toList).findSome? fun part =>
    let name := String.ofList part.chars
    match part with
    | .plain _ => none
    | .placeholder _ => if (Parameter.named? c.parameters name).isSome then none else some name

end Compiled

inductive Command
  | immediate (compiled : Compiled)
  | delayed (buffer : CodeBuffer)

/-- The run of some code. Each run has a site of its own, and values made by it are told apart by
their sites. -/
abbrev Site := List Nat

/-- How open parts are filled. -/
structure CodeRunner where
  run : CodeId → Site → CodeBuffer → Written
  /-- Compiles a buffer in which a run has left parts open again. -/
  again : Site → CodeBuffer → Except ConstructionError Compiled

namespace CodeRunner

def settle (r : CodeRunner) (site : Site) (b : CodeBuffer) : Except ConstructionError Compiled :=
  if b.isDelayed then r.again (0 :: site) b else .ok ⟨b.fixedText, b.parameters⟩

end CodeRunner

mutual

/-- Writes a segment to another buffer. -/
def Segment.replay (r : CodeRunner) (site : Site) : Segment → CodeBuffer → Written
  | .text s, out => (.ok (), out.append s)
  | .code id, out => r.run id site out
  | .embedded segments parameters, out =>
    match Segment.replayAll r site segments 1 ⟨[], parameters⟩ with
    | (.error e, _) => (.error e, out)
    | (.ok (), inner) =>
      match r.settle site inner with
      | .error e => (.error e, out)
      | .ok c => out.appendCompiled c.body c.parameters

/-- Writes segments whose sites count up from `n`. -/
def Segment.replayAll (r : CodeRunner) (site : Site) :
    List Segment → (n : Nat) → CodeBuffer → Written
  | [], _, out => (.ok (), out)
  | s :: rest, n, out =>
    match s.replay r (n :: site) out with
    | (.error e, out) => (.error e, out)
    | (.ok (), out) => Segment.replayAll r site rest (n + 1) out

end

namespace CodeBuffer

/-- The current text. The buffer's own parameters come first. -/
def compile (b : CodeBuffer) (r : CodeRunner) (site : Site) : Except ConstructionError Compiled :=
  match Segment.replayAll r site b.segments 1 ⟨[], b.parameters⟩ with
  | (.error e, _) => .error e
  | (.ok (), out) => r.settle site out

end CodeBuffer

namespace Command

def ofBuffer (b : CodeBuffer) : Command :=
  if b.isDelayed then .delayed b else .immediate ⟨b.fixedText, b.parameters⟩

def isDelayed : Command → Bool
  | immediate _ => false
  | delayed _ => true

/-- The current text and parameters. -/
def compile (c : Command) (r : CodeRunner) (site : Site) : Except ConstructionError Compiled :=
  match c with
  | immediate compiled => .ok compiled
  | delayed b => b.compile r site

/-- Writes the current text to a buffer, which settles it. -/
def writeTo (c : Command) (r : CodeRunner) (site : Site) (out : CodeBuffer) : Written :=
  match c.compile r site with
  | .error e => (.error e, out)
  | .ok compiled => out.appendCompiled compiled.body compiled.parameters

end Command

end DeclarativeSql
