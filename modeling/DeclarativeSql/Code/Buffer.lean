import DeclarativeSql.Code.Parameter
import DeclarativeSql.Code.Spacing
import DeclarativeSql.Error

/-!
# Code buffers

A buffer collects the text of a command and its parameters. Parts of the text may be left open: code
that is written anew each time, and commands with such code in them.
-/
namespace DeclarativeSql

/-- Names code that is written anew each time the text is asked for. -/
structure CodeId where
  index : Nat
  deriving DecidableEq

inductive Segment
  | text (text : String)
  | code (id : CodeId)
  /-- A command with open parts: its own segments and parameters. -/
  | embedded (segments : List Segment) (parameters : List Parameter)

namespace Segment

def isOpen : Segment → Bool
  | text _ => false
  | _ => true

def fixedText : Segment → String
  | text s => s
  | _ => ""

/-- Writes a token after the last segment, or into it if that is text. -/
def appendToken (token : String) : List Segment → List Segment
  | [] => [text token]
  | [text s] => [text (Spacing.join s token)]
  | s :: rest => s :: appendToken token rest

end Segment

structure CodeBuffer where
  segments : List Segment
  parameters : List Parameter

/-- The outcome of writing to a buffer. A failure may leave parameters behind. -/
abbrev Written := Except ConstructionError Unit × CodeBuffer

namespace CodeBuffer

def empty : CodeBuffer := ⟨[], []⟩

/-- Some part of the text is open. -/
def isDelayed (b : CodeBuffer) : Bool := b.segments.any Segment.isOpen

def fixedText (b : CodeBuffer) : String := String.join (b.segments.map Segment.fixedText)

def append (b : CodeBuffer) (token : String) : CodeBuffer :=
  if token.isEmpty then b else { b with segments := Segment.appendToken token b.segments }

def appendOpen (b : CodeBuffer) (s : Segment) : CodeBuffer :=
  { b with segments := b.segments ++ [s] }

/-- The name of the source's parameter. -/
def register (b : CodeBuffer) (source : ParameterSource) : String × CodeBuffer :=
  let (name, parameters) := Parameter.register b.parameters source
  (name, { b with parameters })

def appendSource (b : CodeBuffer) (source : ParameterSource) : CodeBuffer :=
  let (name, b) := b.register source
  b.append name

/-- Renames the placeholders of a text that has parameters of its own, `given`. -/
def rename (given : List Parameter) (b : CodeBuffer) :
    List TextPart → Except ConstructionError (List Char) × CodeBuffer
  | [] => (.ok [], b)
  | .plain c :: rest =>
    match rename given b rest with
    | (.ok text, b) => (.ok (c :: text), b)
    | (.error e, b) => (.error e, b)
  | .placeholder digits :: rest =>
    let name := String.ofList (TextPart.placeholder digits).chars
    match Parameter.named? given name with
    | none => (.error (.unknownArgument name), b)
    | some p =>
      let (new, b) := b.register p.source
      match rename given b rest with
      | (.ok text, b) => (.ok (new.toList ++ text), b)
      | (.error e, b) => (.error e, b)

/-- Writes text that was compiled elsewhere, as one token. -/
def appendCompiled (b : CodeBuffer) (text : String) (given : List Parameter) : Written :=
  match b.rename given (TextPart.split text.toList) with
  | (.ok text, b) => (.ok (), b.append (String.ofList text))
  | (.error e, b) => (.error e, b)

end CodeBuffer

end DeclarativeSql
