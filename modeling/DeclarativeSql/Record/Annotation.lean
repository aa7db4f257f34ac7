import DeclarativeSql.Schema.Flags
import DeclarativeSql.Text.IntegerToken
import DeclarativeSql.Text.TextToken

/-!
# Annotations

A record and its fields carry annotations. An annotation is a path with or without a list of items;
an item is a key with or without a value.
-/
namespace DeclarativeSql

inductive ItemValue
  | text (text : String)
  /-- A value as it is spelled in the source. -/
  | source (tokens : List SourceToken)
  deriving DecidableEq

structure AnnotationItem where
  key : String
  value : Option ItemValue
  deriving DecidableEq

structure Annotation where
  path : String
  items : Option (List AnnotationItem)
  deriving DecidableEq

inductive AnnotationError
  | unsupportedTableItem
  | unsupportedColumnItem
  /-- A key that needs a value has none. -/
  | valueMissing
  /-- A key that takes no value has one. -/
  | separatorMissing
  | textExpected
  | integerExpected
  | integerTooLarge
  | integerNegative
  | tierOutOfRange
  | itemsMissing (path : String)
  | notARecord
  | unnamedFields
  deriving DecidableEq

def AnnotationError.message : AnnotationError → String
  | unsupportedTableItem => "unsupported table attribute"
  | unsupportedColumnItem => "unsupported column attribute"
  | valueMissing => "expected \x60=\x60"
  | separatorMissing => "expected \x60,\x60"
  | textExpected => "expected string literal"
  | integerExpected => "expected integer literal"
  | integerTooLarge => "number too large to fit in target type"
  | integerNegative => "invalid digit found in string"
  | tierOutOfRange => "tier must be between 1 and 4"
  | itemsMissing path => "expected attribute arguments in parentheses: #[" ++ path ++ "(...)]"
  | notARecord => "Table derive only supports structs"
  | unnamedFields => "Table derive only supports structs with named fields"

namespace AnnotationItem

/-- Nothing but the next item follows. -/
def atEnd {α : Type} (value : α) : List SourceToken → Except AnnotationError α
  | [] => .ok value
  | _ => .error .separatorMissing

def text (item : AnnotationItem) : Except AnnotationError String :=
  match item.value with
  | none => .error .valueMissing
  | some (.text s) => .ok s
  | some (.source []) => .error .textExpected
  | some (.source (t :: rest)) =>
    match TextToken.value? t with
    | none => .error .textExpected
    | some s => atEnd s rest

/-- A tier is an 8-bit number first, and from one to four second. -/
def tier (item : AnnotationItem) : Except AnnotationError Nat :=
  match item.value with
  | none => .error .valueMissing
  | some (.text _) => .error .integerExpected
  | some (.source tokens) =>
    match IntegerToken.read? tokens with
    | none => .error .integerExpected
    | some (isNegative, n, rest) =>
      if isNegative then .error .integerNegative
      else if 256 ≤ n then .error .integerTooLarge
      else if n ∈ ColumnFlags.tiers then atEnd n rest
      else .error .tierOutOfRange

/-- The key stands alone. -/
def bare (item : AnnotationItem) : Except AnnotationError Unit :=
  if item.value.isSome then .error .separatorMissing else .ok ()

end AnnotationItem

/-- The name that a list of items gives; the last one counts. -/
def tableNameIn (name : Option String) :
    List AnnotationItem → Except AnnotationError (Option String)
  | [] => .ok name
  | item :: rest =>
    if item.key = "name" then
      match item.text with
      | .error e => .error e
      | .ok name => tableNameIn (some name) rest
    else .error .unsupportedTableItem

/-- The name that the annotations give a table. The first annotation with a name settles it, and
later ones are not looked at. -/
def tableName? : List Annotation → Except AnnotationError (Option String)
  | [] => .ok none
  | a :: rest =>
    if a.path = "table" then
      match a.items with
      | none => .error (.itemsMissing a.path)
      | some items =>
        match tableNameIn none items with
        | .error e => .error e
        | .ok (some name) => .ok (some name)
        | .ok none => tableName? rest
    else tableName? rest

/-- A name in words with underscores between them. Only ASCII letters are lowered, so a capital
beyond ASCII keeps its case behind its underscore. -/
def underscored (name : String) : String :=
  let word (c : Char) : List Char := if CharClass.isUppercase c then ['_', c.toLower] else [c]
  match name.toList with
  | [] => ""
  | c :: rest => String.ofList (c.toLower :: rest.flatMap word)

/-- What the annotations of one field say about its column. -/
structure ColumnAnnotations where
  name : Option String
  isNullable : Bool
  isPrimaryKey : Bool
  isSerial : Bool
  isGin : Bool
  isDefaultNow : Bool
  indexTiers : List Nat
  uniqueTiers : List Nat

namespace ColumnAnnotations

def empty : ColumnAnnotations := ⟨none, false, false, false, false, false, [], []⟩

def addItem (c : ColumnAnnotations) (item : AnnotationItem) :
    Except AnnotationError ColumnAnnotations :=
  match item.key with
  | "name" => item.text.map fun name => { c with name := some name }
  | "primary_key" => item.bare.map fun _ => { c with isPrimaryKey := true }
  | "serial" => item.bare.map fun _ => { c with isSerial := true }
  | "nullable" => item.bare.map fun _ => { c with isNullable := true }
  | "gin" => item.bare.map fun _ => { c with isGin := true }
  | "default_now" => item.bare.map fun _ => { c with isDefaultNow := true }
  | "index" => item.tier.map fun t => { c with indexTiers := c.indexTiers ++ [t] }
  | "unique" => item.tier.map fun t => { c with uniqueTiers := c.uniqueTiers ++ [t] }
  | _ => .error .unsupportedColumnItem

def addItems (c : ColumnAnnotations) :
    List AnnotationItem → Except AnnotationError ColumnAnnotations
  | [] => .ok c
  | item :: rest =>
    match c.addItem item with
    | .error e => .error e
    | .ok c => c.addItems rest

def addAll (c : ColumnAnnotations) :
    List Annotation → Except AnnotationError ColumnAnnotations
  | [] => .ok c
  | a :: rest =>
    if a.path = "column" then
      match c.addItems (a.items.getD []) with
      | .error e => .error e
      | .ok c => c.addAll rest
    else c.addAll rest

/-- Annotations with other paths are somebody else's. -/
def ofAnnotations (annotations : List Annotation) : Except AnnotationError ColumnAnnotations :=
  empty.addAll annotations

/-- The flags one by one: the single ones in a fixed order, then the tiers as they are listed. -/
def flags (c : ColumnAnnotations) : List ColumnFlags :=
  let single (isSet : Bool) (flag : ColumnFlags) : List ColumnFlags := if isSet then [flag] else []
  single c.isNullable .nullable ++ single c.isPrimaryKey .primaryKey ++
    single c.isSerial .serial ++ single c.isGin .gin ++ single c.isDefaultNow .defaultNow ++
    c.indexTiers.map .indexTier ++ c.uniqueTiers.map .uniqueTier

end ColumnAnnotations

end DeclarativeSql
