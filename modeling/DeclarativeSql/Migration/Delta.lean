import DeclarativeSql.Schema.Database

/-!
# Differences between databases

What has to be dropped and added to get from a current to a target database. Tables and columns are
matched by name, indices and uniques by signature. A column that changed is dropped and added again,
together with every constraint that covers it.
-/
namespace DeclarativeSql

structure TableDelta where
  name : String
  columnsToDrop : List ColumnDef
  columnsToAdd : List ColumnDef
  primaryKeyToDrop : Option Key
  primaryKeyToAdd : Option Key
  indicesToDrop : List Index
  indicesToAdd : List Index
  uniquesToDrop : List Key
  uniquesToAdd : List Key
  deriving DecidableEq

namespace TableDelta

def isEmpty (d : TableDelta) : Bool :=
  d.columnsToDrop.isEmpty && d.columnsToAdd.isEmpty && d.primaryKeyToDrop.isNone &&
    d.primaryKeyToAdd.isNone && d.indicesToDrop.isEmpty && d.indicesToAdd.isEmpty &&
    d.uniquesToDrop.isEmpty && d.uniquesToAdd.isEmpty

/-- The columns that are dropped and added again, and lose their data. -/
def replaced (d : TableDelta) : List ColumnDef :=
  d.columnsToDrop.filter fun c => coversName d.columnsToAdd c.name

end TableDelta

structure DatabaseDelta where
  name : String
  tablesToDrop : List Table
  tablesToAdd : List Table
  tablesToModify : List TableDelta
  deriving DecidableEq

def DatabaseDelta.isEmpty (d : DatabaseDelta) : Bool :=
  d.tablesToDrop.isEmpty && d.tablesToAdd.isEmpty && d.tablesToModify.isEmpty

/-- The first element whose key repeats an earlier one or one of `seen`. -/
def firstRepeat {α κ : Type} [DecidableEq κ] (key : α → κ) (seen : List κ) : List α → Option α
  | [] => none
  | x :: rest => if key x ∈ seen then some x else firstRepeat key (key x :: seen) rest

theorem firstRepeat_eq_none_iff {α κ : Type} [DecidableEq κ] {key : α → κ} {seen : List κ}
    {xs : List α} : firstRepeat key seen xs = none ↔
      (xs.map key).Nodup ∧ ∀ x ∈ xs, key x ∉ seen := by
  induction xs generalizing seen with
  | nil => simp [firstRepeat]
  | cons x xs ih =>
    by_cases h : key x ∈ seen
    · simp [firstRepeat, h]
    · simp only [firstRepeat, h, if_false, ih, List.map_cons, List.nodup_cons, List.mem_cons,
        List.mem_map]
      constructor
      · rintro ⟨hn, hs⟩
        refine ⟨⟨fun ⟨y, hy, he⟩ => hs y hy (.inl he), hn⟩, ?_⟩
        rintro y (rfl | hy)
        · exact h
        · exact fun hm => hs y hy (.inr hm)
      · rintro ⟨⟨hx, hn⟩, hs⟩
        refine ⟨hn, fun y hy => ?_⟩
        rintro (he | hm)
        · exact hx ⟨y, hy, he⟩
        · exact hs y (.inr hy) hm

namespace Table

/-- What in the table can not be told apart by name or signature. -/
def ambiguity? (t : Table) : Option Ambiguity :=
  match firstRepeat ColumnDef.name [] t.definitions with
  | some d => some (.columnTwice d.name)
  | none =>
    match firstRepeat Index.signature [] t.indices with
    | some i => some (.indexTwice i.name)
    | none =>
      match firstRepeat Key.signature [] t.uniques with
      | some k => some (.uniqueTwice k.name)
      | none => none

end Table

/-- The first table that repeats an earlier name or one of `seen`, or is ambiguous in itself. -/
def firstAmbiguous (seen : List String) : List Table → Option (String × Ambiguity)
  | [] => none
  | t :: rest =>
    if t.name ∈ seen then some (t.name, .tableTwice)
    else
      match t.ambiguity? with
      | some a => some (t.name, a)
      | none => firstAmbiguous (t.name :: seen) rest

def Database.ambiguity? (db : Database) : Option (String × Ambiguity) :=
  firstAmbiguous [] db.tables

/-- The column is missing or has another shape. -/
def Table.lacks (t : Table) (d : ColumnDef) : Bool :=
  match t.columnByName? d.name with
  | none => true
  | some o => !d.sameShape o.definition

/-- The names of the current columns that the target has with another shape. -/
def replacedNames (current target : Table) : List String :=
  (current.definitions.filter fun d =>
    (target.columnByName? d.name).isSome && target.lacks d).map (·.name)

def coversAny (columns : List ColumnDef) (names : List String) : Bool :=
  columns.any fun d => d.name ∈ names

/-- The keys have other signatures, or the current one covers a replaced column. -/
def keyChanged (replaced : List String) (current target : Table) : Bool :=
  match current.primaryKey, target.primaryKey with
  | none, none => false
  | some c, some t => c.signature != t.signature || coversAny c.columns replaced
  | _, _ => true

/-- Constraints of one table without a counterpart in the other one, or over a replaced column. -/
def unmatched {α σ : Type} [BEq σ] (signature : α → σ) (columns : α → List ColumnDef)
    (replaced : List String) (own others : List α) : List α :=
  own.filter fun x =>
    !(others.any fun o => signature o == signature x) || coversAny (columns x) replaced

/-- The difference of two tables of one name. The replaced columns are collected once, from the
current table, and decide about both halves of the difference. -/
def diffTable (current target : Table) : TableDelta :=
  let replaced := replacedNames current target
  let key := keyChanged replaced current target
  { name := target.name
    columnsToDrop := current.definitions.filter target.lacks
    columnsToAdd := target.definitions.filter fun d =>
      (current.columnByName? d.name).isNone || d.name ∈ replaced
    primaryKeyToDrop := if key then current.primaryKey else none
    primaryKeyToAdd := if key then target.primaryKey else none
    indicesToDrop := unmatched Index.signature Index.columns replaced current.indices target.indices
    indicesToAdd := unmatched Index.signature Index.columns replaced target.indices current.indices
    uniquesToDrop := unmatched Key.signature Key.columns replaced current.uniques target.uniques
    uniquesToAdd := unmatched Key.signature Key.columns replaced target.uniques current.uniques }

/-- Tables of one database whose name the other one lacks. -/
def tablesNotIn (own other : Database) : List Table :=
  own.tables.filter fun t => (other.table? t.name).isNone

/-- The difference of one table of the target, if there is any. -/
def modified? (current : Database) (target : Table) : Option TableDelta :=
  match current.table? target.name with
  | none => none
  | some c =>
    let delta := diffTable c target
    if delta.isEmpty then none else some delta

/-- The difference of two databases, none of which may be ambiguous. -/
def diff (current target : Database) : Except Error DatabaseDelta :=
  match current.ambiguity?, target.ambiguity? with
  | some (table, reason), _ => .error (.diffConflict .current table reason)
  | none, some (table, reason) => .error (.diffConflict .target table reason)
  | none, none =>
    .ok
      { name := target.name
        tablesToDrop := tablesNotIn current target
        tablesToAdd := tablesNotIn target current
        tablesToModify := target.tables.filterMap (modified? current) }

end DeclarativeSql
