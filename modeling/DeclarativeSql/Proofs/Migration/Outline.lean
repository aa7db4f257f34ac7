import DeclarativeSql.Proofs.Catalog.RoundTrip
import DeclarativeSql.Proofs.Migration.Conflicts

/-!
# Outlines

What a difference does not look at: names of databases, members and constraints, identities of
tables, and flags of columns that are not structural. An outline is what remains without them. The
difference of two outlines is the outline of the difference, so nothing else can decide it.
-/
namespace DeclarativeSql

def Key.outline (k : Key) : Key := { k.stored with name := "" }

def Index.outline (i : Index) : Index := { i.stored with name := "" }

def Column.outline (c : Column) : Column :=
  { c with definition := c.definition.stored, member := "", table := ⟨0⟩ }

def Table.outline (t : Table) : Table :=
  { id := ⟨0⟩
    name := t.name
    columns := t.columns.map Column.outline
    primaryKey := t.primaryKey.map Key.outline
    indices := t.indices.map Index.outline
    uniques := t.uniques.map Key.outline }

def Database.outline (db : Database) : Database := ⟨"", db.tables.map Table.outline⟩

def TableDelta.outline (d : TableDelta) : TableDelta :=
  { name := d.name
    columnsToDrop := d.columnsToDrop.map ColumnDef.stored
    columnsToAdd := d.columnsToAdd.map ColumnDef.stored
    primaryKeyToDrop := d.primaryKeyToDrop.map Key.outline
    primaryKeyToAdd := d.primaryKeyToAdd.map Key.outline
    indicesToDrop := d.indicesToDrop.map Index.outline
    indicesToAdd := d.indicesToAdd.map Index.outline
    uniquesToDrop := d.uniquesToDrop.map Key.outline
    uniquesToAdd := d.uniquesToAdd.map Key.outline }

def DatabaseDelta.outline (d : DatabaseDelta) : DatabaseDelta :=
  { name := ""
    tablesToDrop := d.tablesToDrop.map Table.outline
    tablesToAdd := d.tablesToAdd.map Table.outline
    tablesToModify := d.tablesToModify.map TableDelta.outline }

/-- Constraints are not named. -/
def Ambiguity.outline : Ambiguity → Ambiguity
  | indexTwice _ => .indexTwice ""
  | uniqueTwice _ => .uniqueTwice ""
  | reason => reason

def Error.outline : Error → Error
  | diffConflict side table reason => .diffConflict side table reason.outline
  | error => error

theorem ColumnDef.sameShape_stored (d e : ColumnDef) :
    d.stored.sameShape e.stored = d.sameShape e := by
  rw [Bool.eq_iff_iff, sameShape_iff_shape, sameShape_iff_shape, shape_stored, shape_stored]

@[simp] theorem Key.signature_outline (k : Key) : k.outline.signature = k.signature :=
  signatureOf_stored k.columns

@[simp] theorem Index.signature_outline (i : Index) : i.outline.signature = i.signature :=
  Prod.ext (signatureOf_stored i.columns) rfl

namespace Table

@[simp] theorem name_outline (t : Table) : t.outline.name = t.name := rfl

theorem definitions_outline (t : Table) :
    t.outline.definitions = t.definitions.map ColumnDef.stored := by
  simp [outline, definitions, Column.outline]

theorem columnByName?_outline (t : Table) (name : String) :
    t.outline.columnByName? name = (t.columnByName? name).map Column.outline := by
  rw [outline, columnByName?, List.find?_map]
  rfl

theorem lacks_outline (t : Table) (d : ColumnDef) : t.outline.lacks d.stored = t.lacks d := by
  unfold lacks
  rw [ColumnDef.name_stored, columnByName?_outline]
  cases t.columnByName? d.name with
  | none => rfl
  | some c => exact congrArg (!·) (d.sameShape_stored c.definition)

end Table

section Tables

variable (a b : Table)

theorem filter_definitions_outline {p q : ColumnDef → Bool} (h : ∀ d, p d.stored = q d) :
    a.outline.definitions.filter p = (a.definitions.filter q).map ColumnDef.stored := by
  rw [Table.definitions_outline, List.filter_map]
  exact congrArg _ (List.filter_congr fun d _ => h d)

theorem replacedNames_outline : replacedNames a.outline b.outline = replacedNames a b := by
  have hfound : ∀ d : ColumnDef,
      ((b.outline.columnByName? d.stored.name).isSome && b.outline.lacks d.stored) =
        ((b.columnByName? d.name).isSome && b.lacks d) := fun d => by
    rw [b.lacks_outline, ColumnDef.name_stored, Table.columnByName?_outline, Option.isSome_map]
  rw [replacedNames, replacedNames, filter_definitions_outline a hfound, List.map_map]
  rfl

theorem coversAny_stored (columns : List ColumnDef) (names : List String) :
    coversAny (columns.map ColumnDef.stored) names = coversAny columns names := by
  rw [coversAny, List.any_map]
  rfl

theorem keyChanged_outline (names : List String) :
    keyChanged names a.outline b.outline = keyChanged names a b := by
  have hkey : ∀ t : Table, t.outline.primaryKey = t.primaryKey.map Key.outline := fun _ => rfl
  unfold keyChanged
  rw [hkey, hkey]
  cases a.primaryKey with
  | none => cases b.primaryKey <;> rfl
  | some k =>
    cases b.primaryKey with
    | none => rfl
    | some o =>
      simp only [Option.map_some, Key.signature_outline]
      exact congrArg (_ || ·) (coversAny_stored k.columns names)

/-- Constraints are matched by their signatures, and their columns by name. -/
theorem unmatched_outline {α σ : Type} [BEq σ] {sig : α → σ} {columns : α → List ColumnDef}
    {f : α → α} (hsig : ∀ x, sig (f x) = sig x)
    (hcolumns : ∀ x, columns (f x) = (columns x).map ColumnDef.stored) (names : List String)
    (own others : List α) : unmatched sig columns names (own.map f) (others.map f) =
      (unmatched sig columns names own others).map f := by
  unfold unmatched
  rw [List.filter_map]
  refine congrArg _ (List.filter_congr fun x _ => ?_)
  simp only [Function.comp_apply, hcolumns, coversAny_stored, List.any_map, Function.comp_def, hsig]

theorem diffTable_outline : diffTable a.outline b.outline = (diffTable a b).outline := by
  have hkey : ∀ (c : Bool) (k : Option Key), (if c then k.map Key.outline else none) =
      (if c then k else none).map Key.outline := by
    intro c k
    cases c <;> rfl
  have hadd : (b.outline.definitions.filter fun d =>
        (a.outline.columnByName? d.name).isNone || d.name ∈ replacedNames a b) =
      (b.definitions.filter fun d =>
        (a.columnByName? d.name).isNone || d.name ∈ replacedNames a b).map ColumnDef.stored :=
    filter_definitions_outline b fun d => by
      rw [ColumnDef.name_stored, Table.columnByName?_outline, Option.isNone_map]
  have hindices : ∀ s t : Table, unmatched Index.signature Index.columns (replacedNames a b)
      s.outline.indices t.outline.indices = (unmatched Index.signature Index.columns
        (replacedNames a b) s.indices t.indices).map Index.outline := fun s t =>
    unmatched_outline Index.signature_outline (fun _ => rfl) _ s.indices t.indices
  have huniques : ∀ s t : Table, unmatched Key.signature Key.columns (replacedNames a b)
      s.outline.uniques t.outline.uniques = (unmatched Key.signature Key.columns
        (replacedNames a b) s.uniques t.uniques).map Key.outline := fun s t =>
    unmatched_outline Key.signature_outline (fun _ => rfl) _ s.uniques t.uniques
  simp only [diffTable, TableDelta.outline, replacedNames_outline, keyChanged_outline,
    filter_definitions_outline a b.lacks_outline, hadd, hindices, huniques, ← hkey]
  rfl

end Tables

theorem TableDelta.isEmpty_outline (d : TableDelta) : d.outline.isEmpty = d.isEmpty := by
  simp [isEmpty, outline]

theorem firstRepeat_map {α β κ : Type} [DecidableEq κ] (key : β → κ) (f : α → β) (seen : List κ)
    (xs : List α) : firstRepeat key seen (xs.map f) =
      (firstRepeat (fun x => key (f x)) seen xs).map f := by
  induction xs generalizing seen with
  | nil => rfl
  | cons x xs ih =>
    by_cases hx : key (f x) ∈ seen
    · simp [firstRepeat, hx]
    · simp [firstRepeat, hx, ih]

theorem Table.ambiguity?_outline (t : Table) :
    t.outline.ambiguity? = t.ambiguity?.map Ambiguity.outline := by
  unfold ambiguity?
  rw [definitions_outline, outline, firstRepeat_map, firstRepeat_map, firstRepeat_map]
  simp only [ColumnDef.name_stored, Index.signature_outline, Key.signature_outline]
  cases firstRepeat (fun d => d.name) [] t.definitions with
  | some d => rfl
  | none =>
    cases firstRepeat (fun i => i.signature) [] t.indices with
    | some i => rfl
    | none => cases firstRepeat (fun k => k.signature) [] t.uniques <;> rfl

theorem firstAmbiguous_outline (seen : List String) (ts : List Table) :
    firstAmbiguous seen (ts.map Table.outline) =
      (firstAmbiguous seen ts).map fun found => (found.1, found.2.outline) := by
  induction ts generalizing seen with
  | nil => rfl
  | cons t ts ih =>
    rw [List.map_cons, firstAmbiguous, firstAmbiguous, Table.name_outline,
      Table.ambiguity?_outline]
    by_cases ht : t.name ∈ seen
    · simp [ht, Ambiguity.outline]
    · cases t.ambiguity? with
      | some reason => simp [ht]
      | none => simp [ht, ih]

section Databases

variable (a b : Database)

theorem Database.tables_outline : a.outline.tables = a.tables.map Table.outline := rfl

theorem Database.ambiguity?_outline : a.outline.ambiguity? =
    a.ambiguity?.map fun found => (found.1, found.2.outline) :=
  firstAmbiguous_outline [] a.tables

theorem Database.table?_outline (name : String) :
    a.outline.table? name = (a.table? name).map Table.outline := by
  rw [outline, table?, List.find?_map]
  rfl

theorem tablesNotIn_outline :
    tablesNotIn a.outline b.outline = (tablesNotIn a b).map Table.outline := by
  unfold tablesNotIn
  rw [Database.tables_outline, List.filter_map]
  congr 1
  refine List.filter_congr fun t _ => ?_
  rw [Function.comp_apply, Table.name_outline, Database.table?_outline, Option.isNone_map]

theorem modified?_outline (t : Table) :
    modified? a.outline t.outline = (modified? a t).map TableDelta.outline := by
  unfold modified?
  rw [Table.name_outline, Database.table?_outline]
  cases a.table? t.name with
  | none => rfl
  | some c =>
    simp only [Option.map_some, diffTable_outline, TableDelta.isEmpty_outline]
    by_cases hempty : (diffTable c t).isEmpty = true <;> simp [hempty]

theorem filterMap_modified?_outline :
    b.outline.tables.filterMap (modified? a.outline) =
      (b.tables.filterMap (modified? a)).map TableDelta.outline := by
  rw [Database.tables_outline, List.filterMap_map, List.map_filterMap]
  exact congrArg (List.filterMap · b.tables) (funext (modified?_outline a))

/-- The difference of two outlines is the outline of the difference. If there is none, the same
side and the same table are to blame. -/
theorem diff_outline : diff a.outline b.outline =
    match diff a b with
    | .ok delta => .ok delta.outline
    | .error error => .error error.outline := by
  unfold diff
  rw [Database.ambiguity?_outline, Database.ambiguity?_outline]
  cases a.ambiguity? with
  | some found => rfl
  | none =>
    cases b.ambiguity? with
    | some found => rfl
    | none =>
      simp only [Option.map_none, tablesNotIn_outline, filterMap_modified?_outline]
      rfl

end Databases

theorem exists_conflict_of_diff {a b : Database} {error : Error} (h : diff a b = .error error) :
    ∃ side table reason, error = .diffConflict side table reason := by
  obtain ⟨t, reason, ⟨-, rfl⟩ | ⟨-, -, rfl⟩⟩ := diff_eq_error_iff.mp h
  · exact ⟨_, _, _, rfl⟩
  · exact ⟨_, _, _, rfl⟩

/-- Two databases that are changed in names of databases, members and constraints, in identities of
tables and in flags that are not structural are still compared in the same way. Either both
comparisons are refused, for the same side and the same table, or both differences are the same up
to what was changed, entry by entry. -/
theorem diff_of_same_outline {a a' b b' : Database} (ha : a.outline = a'.outline)
    (hb : b.outline = b'.outline) :
    (∃ side table reason reason', diff a b = .error (.diffConflict side table reason) ∧
      diff a' b' = .error (.diffConflict side table reason') ∧
      reason.outline = reason'.outline) ∨
    ∃ delta delta', diff a b = .ok delta ∧ diff a' b' = .ok delta' ∧
      delta.outline = delta'.outline := by
  have h : diff a.outline b.outline = diff a'.outline b'.outline := by rw [ha, hb]
  rw [diff_outline, diff_outline] at h
  cases hdiff : diff a b with
  | ok delta =>
    cases hdiff' : diff a' b' with
    | ok delta' =>
      rw [hdiff, hdiff'] at h
      exact .inr ⟨delta, delta', rfl, rfl, Except.ok.inj h⟩
    | error error' =>
      rw [hdiff, hdiff'] at h
      cases h
  | error error =>
    cases hdiff' : diff a' b' with
    | ok delta' =>
      rw [hdiff, hdiff'] at h
      cases h
    | error error' =>
      rw [hdiff, hdiff'] at h
      obtain ⟨side, table, reason, rfl⟩ := exists_conflict_of_diff hdiff
      obtain ⟨side', table', reason', rfl⟩ := exists_conflict_of_diff hdiff'
      obtain ⟨rfl, rfl, hreason⟩ := Error.diffConflict.inj (Except.error.inj h)
      exact .inl ⟨side, table, reason, reason', rfl, rfl, hreason⟩

namespace Entries

/-- One table with a key over its column `a`. -/
def database (name member key : String) (id : Nat) (flags : ColumnFlags) (amount : Scalar) :
    Database :=
  let d : ColumnDef := ⟨"a", .scalar amount, flags⟩
  ⟨name, [⟨⟨id⟩, "entries", [⟨d, member, ⟨id⟩, "entries"⟩], some ⟨key, [d]⟩, [], []⟩]⟩

/-- The column gets another type, whatever else was chosen. -/
theorem diff_of_same_outline_of_column :
    let a := database "app" "a" "pkey_entries_a" 1 .primaryKey .int32
    let a' := database "legacy" "amount" "entries_key" 7 .empty .int32
    let b := database "app" "a" "pkey_entries_a" 1 .primaryKey .int64
    let b' := database "other" "total" "primary" 9 (.indexTier 2) .int64
    a.outline = a'.outline ∧ b.outline = b'.outline ∧
      ((∃ side table reason reason', diff a b = .error (.diffConflict side table reason) ∧
        diff a' b' = .error (.diffConflict side table reason') ∧
        reason.outline = reason'.outline) ∨
      ∃ delta delta', diff a b = .ok delta ∧ diff a' b' = .ok delta' ∧
        delta.outline = delta'.outline) :=
  ⟨by decide, by decide, diff_of_same_outline (by decide) (by decide)⟩

end Entries

end DeclarativeSql
