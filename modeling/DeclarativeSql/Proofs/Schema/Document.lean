import DeclarativeSql.Migration.SchemaFile
import DeclarativeSql.Proofs.Json.Indented
import DeclarativeSql.Proofs.Results
import DeclarativeSql.Proofs.Schema.Builder
import DeclarativeSql.Proofs.Schema.Contents

/-!
# Loading what was saved

A saved database is loaded as a copy with new identities, provided that the name of each column a
constraint lists leads back to this column.
-/
namespace DeclarativeSql

namespace Document

theorem readList_array {α β : Type} {read : Json → Read β} {encode : α → Json} {g : α → β}
    {xs : List α} (h : ∀ x ∈ xs, read (encode x) = .ok (g x)) :
    readList read (.array (xs.map encode)) = .ok (xs.map g) := by
  have hitems : readItems (.array (xs.map encode)) = .ok (xs.map fun x => .ok (encode x)) := by
    simp [readItems, Function.comp_def]
  rw [readList, hitems]
  show (xs.map fun x => (.ok (encode x) : Read Json)).mapM (· >>= read) = _
  rw [List.mapM_map]
  exact mapM_eq_ok_map h

theorem gather_map_ok {σ : Type} (take : σ → String × Json → Read σ) (start : σ)
    (fields : List (String × Json)) :
    gather take start (fields.map .ok) = fields.foldlM take start := by
  rw [gather, List.foldlM_map]
  rfl

theorem fill_of_none {α σ : Type} {place : Option α} {value : Read α} {x : α}
    (put : Option α → σ) (hplace : place = none) (hvalue : value = .ok x) :
    (do return put (← fill place value) : Read σ) = .ok (put (some x)) := by
  rw [hplace, hvalue]
  rfl

theorem readSqlType_sqlTypeToJson (t : SqlType) : readSqlType (sqlTypeToJson t) = .ok t := by
  rcases t with s | s <;> cases s <;> rfl

theorem readFlags_toNat (flags : ColumnFlags) :
    readFlags (.integer flags.bits.toNat) = .ok flags := by
  have hsize : flags.bits.toNat < UInt64.size := flags.bits.isLt
  simp [readFlags, hsize]

section

variable {f : ColumnFields} {v : Json}

theorem columnField_name {name : String} (hv : v.isHeld columnDepth = true) (hf : f.name = none)
    (h : readString v = .ok name) :
    columnField f ("name", v) = .ok { f with name := some name } := by
  have hheld : ¬ (!v.isHeld columnDepth) = true := by simp [hv]
  exact (if_neg hheld).trans (fill_of_none (fun name => { f with name }) hf h :)

theorem columnField_sqlType {sqlType : SqlType} (hv : v.isHeld columnDepth = true)
    (hf : f.sqlType = none) (h : readSqlType v = .ok sqlType) :
    columnField f ("sql_type", v) = .ok { f with sqlType := some sqlType } := by
  have hheld : ¬ (!v.isHeld columnDepth) = true := by simp [hv]
  exact (if_neg hheld).trans (fill_of_none (fun sqlType => { f with sqlType }) hf h :)

theorem columnField_flags {flags : ColumnFlags} (hv : v.isHeld columnDepth = true)
    (hf : f.flags = none) (h : readFlags v = .ok flags) :
    columnField f ("flags", v) = .ok { f with flags := some flags } := by
  have hheld : ¬ (!v.isHeld columnDepth) = true := by simp [hv]
  exact (if_neg hheld).trans (fill_of_none (fun flags => { f with flags }) hf h :)

theorem columnField_member {member : Option String} (hv : v.isHeld columnDepth = true)
    (hf : f.member = none) (h : readOptional readString v = .ok member) :
    columnField f ("member", v) = .ok { f with member := some member } := by
  have hheld : ¬ (!v.isHeld columnDepth) = true := by simp [hv]
  exact (if_neg hheld).trans (fill_of_none (fun member => { f with member }) hf h :)

end

theorem isHeld_string (s : String) : (Json.string s).isHeld columnDepth = true := rfl

theorem isHeld_integer (n : Int) : (Json.integer n).isHeld columnDepth = true := rfl

theorem isHeld_sqlTypeToJson (t : SqlType) : (sqlTypeToJson t).isHeld columnDepth = true := by
  cases t <;> rfl

/-- What the first three fields of a column add up to. -/
def ColumnFields.ofDefinition (d : ColumnDef) : ColumnFields :=
  ⟨some d.name, some d.sqlType, some d.flags, none⟩

theorem foldlM_definitionFields (d : ColumnDef) :
    (definitionFields d).foldlM columnField ⟨none, none, none, none⟩ =
      .ok (ColumnFields.ofDefinition d) := by
  rw [definitionFields, List.foldlM_cons, columnField_name (isHeld_string _) rfl rfl, ok_bind,
    List.foldlM_cons,
    columnField_sqlType (isHeld_sqlTypeToJson _) rfl (readSqlType_sqlTypeToJson _), ok_bind,
    List.foldlM_cons, columnField_flags (isHeld_integer _) rfl (readFlags_toNat _), ok_bind,
    List.foldlM_nil]
  rfl

theorem readColumn_of_fields {fields : List (String × Json)} {d : ColumnDef}
    {member : Option (Option String)}
    (h : fields.foldlM columnField ⟨none, none, none, none⟩ =
      .ok { ColumnFields.ofDefinition d with member }) :
    readColumn (.object fields) = .ok ((member.getD none).getD d.name, d) := by
  rw [readColumn, readObject, ok_bind, gather_map_ok, h]
  rfl

/-- A member that is left out is the name of the column. -/
theorem readColumn_columnToJson (c : Column) :
    readColumn (columnToJson c) = .ok (c.member, c.definition) := by
  have hdefinition := foldlM_definitionFields c.definition
  simp only [columnToJson]
  split
  next hm =>
    rw [List.append_nil, readColumn_of_fields hdefinition, hm]
    rfl
  next hm =>
    have hmember : (definitionFields c.definition ++ [("member", Json.string c.member)]).foldlM
        columnField ⟨none, none, none, none⟩ =
          .ok { ColumnFields.ofDefinition c.definition with member := some (some c.member) } := by
      rw [List.foldlM_append, hdefinition, ok_bind, List.foldlM_cons,
        columnField_member (isHeld_string _) rfl rfl]
      rfl
    exact readColumn_of_fields hmember

theorem readList_namesToJson (columns : List ColumnDef) :
    readList readString (namesToJson columns) = .ok (columns.map ColumnDef.name) :=
  readList_array fun _ _ => rfl

def Key.raw (k : Key) : RawConstraint := ⟨k.name, .standard, k.columns.map ColumnDef.name⟩

def Index.raw (i : Index) : RawConstraint := ⟨i.name, i.method, i.columns.map ColumnDef.name⟩

section

variable {withMethod : Bool} {f : ConstraintFields} {v : Json}

theorem constraintField_name {name : String} (hf : f.name = none) (h : readString v = .ok name) :
    constraintField withMethod f ("name", v) = .ok { f with name := some name } :=
  (fill_of_none (fun name => { f with name }) hf h :)

theorem constraintField_method {method : IndexMethod} (hf : f.method = none)
    (h : readMethod v = .ok method) :
    constraintField true f ("method", v) = .ok { f with method := some method } :=
  (fill_of_none (fun method => { f with method }) hf h :)

theorem constraintField_columns {columns : List String} (hf : f.columns = none)
    (h : readList readString v = .ok columns) :
    constraintField withMethod f ("columns", v) = .ok { f with columns := some columns } :=
  (fill_of_none (fun columns => { f with columns }) hf h :)

end

theorem readConstraint_object (withMethod : Bool) (fields : List (String × Json)) :
    readConstraint withMethod (.object fields) = (do
      let f ← fields.foldlM (constraintField withMethod) ⟨none, none, none⟩
      return ⟨← require f.name, f.method.getD .standard, ← require f.columns⟩) := by
  simp only [readConstraint, readFields, readObject, ok_bind, gather_map_ok]

theorem readConstraint_keyToJson (k : Key) :
    readConstraint false (keyToJson k) = .ok (Key.raw k) := by
  rw [keyToJson, readConstraint_object, List.foldlM_cons, constraintField_name rfl rfl, ok_bind,
    List.foldlM_cons, constraintField_columns rfl (readList_namesToJson _), ok_bind,
    List.foldlM_nil]
  rfl

theorem readMethod_name (m : IndexMethod) : readMethod (.string m.name) = .ok m := by
  cases m <;> rfl

theorem readConstraint_indexToJson (i : Index) :
    readConstraint true (indexToJson i) = .ok (Index.raw i) := by
  rw [indexToJson, readConstraint_object, List.foldlM_cons, constraintField_name rfl rfl, ok_bind,
    List.foldlM_cons, constraintField_method rfl (readMethod_name _), ok_bind,
    List.foldlM_cons, constraintField_columns rfl (readList_namesToJson _), ok_bind,
    List.foldlM_nil]
  rfl

theorem resolve_names {definitions columns : List ColumnDef}
    (h : ∀ d ∈ columns, definitions.find? (·.name == d.name) = some d) (table : String) :
    resolve table definitions (columns.map ColumnDef.name) = .ok columns :=
  mapM_map_eq_ok fun d hd => by rw [h d hd]

theorem resolveKey_raw {definitions : List ColumnDef} {k : Key}
    (h : ∀ d ∈ k.columns, definitions.find? (·.name == d.name) = some d) (table : String) :
    resolveKey table definitions (Key.raw k) = .ok k := by
  rw [resolveKey, Key.raw, resolve_names h]
  rfl

theorem resolveIndex_raw {definitions : List ColumnDef} {i : Index}
    (h : ∀ d ∈ i.columns, definitions.find? (·.name == d.name) = some d) (table : String) :
    resolveIndex table definitions (Index.raw i) = .ok i := by
  rw [resolveIndex, Index.raw, resolve_names h]
  rfl

section

variable {f : TableFields} {v : Json}

theorem tableField_name {name : String} (hf : f.name = none) (h : readString v = .ok name) :
    tableField f ("name", v) = .ok { f with name := some name } :=
  (fill_of_none (fun name => { f with name }) hf h :)

theorem tableField_columns {columns : List (String × ColumnDef)} (hf : f.columns = none)
    (h : readList readColumn v = .ok columns) :
    tableField f ("columns", v) = .ok { f with columns := some columns } :=
  (fill_of_none (fun columns => { f with columns }) hf h :)

theorem tableField_primaryKey {key : Option RawConstraint} (hf : f.primaryKey = none)
    (h : readOptional (readConstraint false) v = .ok key) :
    tableField f ("primary_key", v) = .ok { f with primaryKey := some key } :=
  (fill_of_none (fun primaryKey => { f with primaryKey }) hf h :)

theorem tableField_indices {indices : List RawConstraint} (hf : f.indices = none)
    (h : readList (readConstraint true) v = .ok indices) :
    tableField f ("indices", v) = .ok { f with indices := some indices } :=
  (fill_of_none (fun indices => { f with indices }) hf h :)

theorem tableField_uniques {uniques : List RawConstraint} (hf : f.uniques = none)
    (h : readList (readConstraint false) v = .ok uniques) :
    tableField f ("uniques", v) = .ok { f with uniques := some uniques } :=
  (fill_of_none (fun uniques => { f with uniques }) hf h :)

end

/-- An absent key and an empty list leave their places empty. -/
def TableFields.ofTable (t : Table) : TableFields where
  name := some t.name
  columns := some (t.columns.map fun c => (c.member, c.definition))
  primaryKey := t.primaryKey.map fun k => some (Key.raw k)
  indices := if t.indices.isEmpty then none else some (t.indices.map Index.raw)
  uniques := if t.uniques.isEmpty then none else some (t.uniques.map Key.raw)

theorem foldlM_primaryKey {f : TableFields} (hf : f.primaryKey = none) (key : Option Key) :
    (key.toList.map fun k => ("primary_key", keyToJson k)).foldlM tableField f =
      .ok { f with primaryKey := key.map fun k => some (Key.raw k) } := by
  cases key with
  | none => rw [Option.map_none, ← hf]; rfl
  | some k =>
    have hread : readOptional (readConstraint false) (keyToJson k) = .ok (some (Key.raw k)) := by
      show (readConstraint false (keyToJson k)).map some = _
      rw [readConstraint_keyToJson]
      rfl
    rw [Option.toList_some, List.map_singleton, List.foldlM_cons, tableField_primaryKey hf hread]
    rfl

theorem foldlM_indices {f : TableFields} (hf : f.indices = none) (indices : List Index) :
    (listField "indices" indexToJson indices).foldlM tableField f =
      .ok { f with indices :=
        if indices.isEmpty then none else some (indices.map Index.raw) } := by
  unfold listField
  split
  next => rw [← hf]; rfl
  next =>
    rw [List.foldlM_cons,
      tableField_indices hf (readList_array fun i _ => readConstraint_indexToJson i)]
    rfl

theorem foldlM_uniques {f : TableFields} (hf : f.uniques = none) (uniques : List Key) :
    (listField "uniques" keyToJson uniques).foldlM tableField f =
      .ok { f with uniques :=
        if uniques.isEmpty then none else some (uniques.map Key.raw) } := by
  unfold listField
  split
  next => rw [← hf]; rfl
  next =>
    rw [List.foldlM_cons,
      tableField_uniques hf (readList_array fun k _ => readConstraint_keyToJson k)]
    rfl

/-- The fields that a table is written as. -/
def tableFields (t : Table) : List (String × Json) :=
  [("name", Json.string t.name), ("columns", .array (t.columns.map columnToJson))] ++
    t.primaryKey.toList.map (fun k => ("primary_key", keyToJson k)) ++
    listField "indices" indexToJson t.indices ++ listField "uniques" keyToJson t.uniques

theorem foldlM_tableFields (t : Table) :
    (tableFields t).foldlM tableField ⟨none, none, none, none, none⟩ =
      .ok (TableFields.ofTable t) := by
  have hcolumns : readList readColumn (.array (t.columns.map columnToJson)) =
      .ok (t.columns.map fun c => (c.member, c.definition)) :=
    readList_array fun c _ => readColumn_columnToJson c
  rw [tableFields, List.foldlM_append, List.foldlM_append, List.foldlM_append, List.foldlM_cons,
    tableField_name rfl rfl, ok_bind, List.foldlM_cons, tableField_columns rfl hcolumns, ok_bind,
    List.foldlM_nil, pure_bind, foldlM_primaryKey rfl, ok_bind, foldlM_indices rfl, ok_bind,
    foldlM_uniques rfl]
  rfl

theorem getD_ofList {α β : Type} (f : α → β) (xs : List α) :
    (if xs.isEmpty then none else some (xs.map f)).getD [] = xs.map f := by
  cases xs <;> rfl

theorem readTable_tableToJson {t : Table} (h : t.ListsFirst) (id : TableId) :
    readTable id (tableToJson t) = .ok (t.aliased id) := by
  have hobject : tableToJson t = .object (tableFields t) := rfl
  have hread : ∀ names fields, readFields names (.object fields) = .ok (fields.map .ok) :=
    fun _ _ => rfl
  have hdefinitions : (t.columns.map fun c => (c.member, c.definition)).map (·.2) =
      t.definitions := by
    simp [Table.definitions, Function.comp_def]
  have hindices : (t.indices.map Index.raw).mapM (resolveIndex t.name t.definitions) =
      .ok t.indices :=
    mapM_map_eq_ok fun i hi =>
      resolveIndex_raw (fun d hd => h d (t.mem_listedColumns_of_index hi hd)) t.name
  have huniques : (t.uniques.map Key.raw).mapM (resolveKey t.name t.definitions) =
      .ok t.uniques :=
    mapM_map_eq_ok fun k hk =>
      resolveKey_raw (fun d hd => h d (t.mem_listedColumns_of_unique hk hd)) t.name
  rw [readTable, hobject, hread, ok_bind, gather_map_ok, foldlM_tableFields, ok_bind]
  simp only [TableFields.ofTable, require, ok_bind, getD_ofList, hdefinitions, hindices, huniques]
  cases hk : t.primaryKey with
  | none => simp [Table.aliased, hk, pure, Except.pure]
  | some k =>
    have hkey := resolveKey_raw (fun d hd => h d (t.mem_listedColumns_of_primaryKey hk hd)) t.name
    simp [ok_bind, hkey, Except.map, Table.aliased, hk, pure, Except.pure]

/-- Copies of tables with consecutive identities. -/
def copies (first : TableId) : List Table → List Table
  | [] => []
  | t :: ts => t.aliased first :: copies ⟨first.index + 1⟩ ts

theorem contents_copies (ts : List Table) (first : TableId) :
    (copies first ts).map Table.content = ts.map Table.content := by
  induction ts generalizing first with
  | nil => rfl
  | cons t ts ih => rw [copies, List.map_cons, List.map_cons, Table.content_aliased, ih]

theorem readTables_tableToJson {ts : List Table} (h : ∀ t ∈ ts, t.ListsFirst) (first : TableId) :
    readTables first (ts.map fun t => .ok (tableToJson t)) = .ok (copies first ts) := by
  induction ts generalizing first with
  | nil => rfl
  | cons t ts ih =>
    have hrest := ih (fun u hu => h u (by simp [hu])) ⟨first.index + 1⟩
    simp only [List.map_cons, readTables]
    show (readTable first (tableToJson t) >>= _) = _
    rw [readTable_tableToJson (h t (by simp))]
    show (readTables _ _ >>= _) = _
    rw [hrest]
    rfl

theorem databaseField_name {first : TableId} {f : DatabaseFields} {v : Json} {name : String}
    (hf : f.name = none) (h : readString v = .ok name) :
    databaseField first f ("name", v) = .ok { f with name := some name } :=
  (fill_of_none (fun name => { f with name }) hf h :)

theorem databaseField_tables {first : TableId} {f : DatabaseFields} {v : Json} {ts : List Table}
    (hf : f.tables = none) (h : readItems v >>= readTables first = .ok ts) :
    databaseField first f ("tables", v) = .ok { f with tables := some ts } :=
  (fill_of_none (fun tables => { f with tables }) hf h :)

end Document

namespace Database

open Document

/-- The copy that a saved database is loaded as. -/
def reloaded (db : Database) (first : TableId) : Database := ⟨db.name, copies first db.tables⟩

theorem contents_reloaded (db : Database) (first : TableId) :
    (db.reloaded first).contents = db.contents := contents_copies db.tables first

theorem ofJson_toJson {db : Database} (h : db.ListsFirst) (first : TableId) :
    ofJson first db.toJson = .ok (db.reloaded first) := by
  have htables : readItems (.array (db.tables.map tableToJson)) >>= readTables first =
      .ok (copies first db.tables) := by
    rw [readItems, ok_bind, List.map_map]
    exact readTables_tableToJson h first
  have hread : ∀ names fields, readFields names (.object fields) = .ok (fields.map .ok) :=
    fun _ _ => rfl
  rw [ofJson, toJson, hread, ok_bind, gather_map_ok, List.foldlM_cons, databaseField_name rfl rfl,
    ok_bind, List.foldlM_cons, databaseField_tables rfl htables]
  rfl

theorem tableToJson_congr {t u : Table} (h : t.content = u.content) :
    tableToJson t = tableToJson u := by
  have hcolumns : ∀ v : Table, v.columns.map columnToJson =
      v.content.members.map fun m => columnToJson ⟨m.2, m.1, ⟨0⟩, ""⟩ := by
    intro v
    rw [Table.content, List.map_map]
    rfl
  have hname : t.name = u.name := congrArg TableContent.name h
  have hkey : t.primaryKey = u.primaryKey := congrArg TableContent.primaryKey h
  have hindices : t.indices = u.indices := congrArg TableContent.indices h
  have huniques : t.uniques = u.uniques := congrArg TableContent.uniques h
  rw [tableToJson, tableToJson, hcolumns, hcolumns, h, hname, hkey, hindices, huniques]

theorem toJson_reloaded (db : Database) (first : TableId) :
    (db.reloaded first).toJson = db.toJson := by
  have htables : ∀ ts first, (copies first ts).map tableToJson = ts.map tableToJson := by
    intro ts
    induction ts with
    | nil => exact fun _ => rfl
    | cons t ts ih =>
      intro first
      rw [copies, List.map_cons, List.map_cons, ih,
        tableToJson_congr (Table.content_aliased t first)]
  rw [toJson, toJson, reloaded, htables]

end Database

namespace Document

open Json

theorem isExact_namesToJson (columns : List ColumnDef) : (namesToJson columns).IsExact := by
  refine isExact_array fun v hv => ?_
  obtain ⟨d, -, rfl⟩ := List.mem_map.mp hv
  trivial

theorem isExact_columnToJson (c : Column) : (columnToJson c).IsExact := by
  have htype : (sqlTypeToJson c.definition.sqlType).IsExact := by
    cases c.definition.sqlType <;> exact ⟨trivial, trivial⟩
  have hflags : (Json.integer c.definition.flags.bits.toNat).IsExact := by
    have hsize := c.definition.flags.bits.isLt
    constructor <;> omega
  refine isExact_object fun f hf => ?_
  simp only [definitionFields, List.mem_append, List.mem_cons, List.not_mem_nil, or_false] at hf
  rcases hf with (rfl | rfl | rfl) | hf
  · trivial
  · exact htype
  · exact hflags
  · split at hf
    · cases hf
    · rw [List.mem_singleton.mp hf]
      trivial

theorem isExact_keyToJson (k : Key) : (keyToJson k).IsExact :=
  ⟨trivial, isExact_namesToJson k.columns, trivial⟩

theorem isExact_indexToJson (i : Index) : (indexToJson i).IsExact :=
  ⟨trivial, trivial, isExact_namesToJson i.columns, trivial⟩

theorem isExact_of_mem_listField {α : Type} {name : String} {encode : α → Json} {items : List α}
    (h : ∀ x, (encode x).IsExact) : ∀ f ∈ listField name encode items, f.2.IsExact := by
  unfold listField
  split
  · simp
  · intro f hf
    rw [List.mem_singleton.mp hf]
    refine isExact_array fun v hv => ?_
    obtain ⟨x, -, rfl⟩ := List.mem_map.mp hv
    exact h x

theorem isExact_tableToJson (t : Table) : (tableToJson t).IsExact := by
  refine isExact_object fun f hf => ?_
  simp only [List.mem_append, List.mem_cons, List.not_mem_nil, or_false, List.mem_map] at hf
  rcases hf with (((rfl | rfl) | ⟨k, -, rfl⟩) | hf) | hf
  · trivial
  · refine isExact_array fun v hv => ?_
    obtain ⟨c, -, rfl⟩ := List.mem_map.mp hv
    exact isExact_columnToJson c
  · exact isExact_keyToJson k
  · exact isExact_of_mem_listField isExact_indexToJson f hf
  · exact isExact_of_mem_listField isExact_keyToJson f hf

end Document

namespace SchemaFile

theorem isExact_toJson (db : Database) : db.toJson.IsExact := by
  refine ⟨trivial, Json.isExact_array fun v hv => ?_, trivial⟩
  obtain ⟨t, -, rfl⟩ := List.mem_map.mp hv
  exact Document.isExact_tableToJson t

theorem load_render {db : Database} (h : db.ListsFirst) (first : TableId) :
    load first (some (render db)) = .ok (db.reloaded first) := by
  rw [load, render, Json.read_indented (isExact_toJson db), Database.ofJson_toJson h]

/-- What is saved is loaded as a copy that says the same, column by column and constraint by
constraint, is saved as the same text and differs in the same from any other database. -/
theorem load_render_same {db : Database} (h : db.ListsFirst) (first : TableId) :
    ∃ copy, Database.ofJson first db.toJson = .ok copy ∧
      load first (some (render db)) = .ok copy ∧
      copy.name = db.name ∧ copy.contents = db.contents ∧
      copy.toJson = db.toJson ∧ render copy = render db ∧
      ∀ other : Database,
        (diff copy other).map DatabaseDelta.content = (diff db other).map DatabaseDelta.content ∧
        (diff other copy).map DatabaseDelta.content =
          (diff other db).map DatabaseDelta.content := by
  have hcontents := db.contents_reloaded first
  have hjson := db.toJson_reloaded first
  refine ⟨db.reloaded first, Database.ofJson_toJson h first, load_render h first, rfl, hcontents,
    hjson, by rw [render, render, hjson], fun other => ⟨?_, ?_⟩⟩
  · exact diff_content_congr hcontents rfl rfl
  · exact diff_content_congr rfl rfl hcontents

/-- A declared database is loaded as it was saved, whatever was declared or refused. -/
theorem load_render_of_isBuilt {b : SchemaBuilder} (h : b.IsBuilt) (first : TableId) :
    load first (some (render b.build)) = .ok (b.build.reloaded first) :=
  load_render h.listsFirst first

/-- A column with another member, one with bits that no flag names, and constraints in an order of
their own. -/
def posts : Database :=
  let id : ColumnDef := ⟨"id", .scalar .int64, .primaryKey ||| .serial ||| .bit 40⟩
  let title : ColumnDef := ⟨"post_title", .scalar .text, .nullable⟩
  let tags : ColumnDef := ⟨"tags", .array .text, .gin⟩
  ⟨"blog", [
    ⟨⟨1⟩, "posts", Table.bindAll ⟨1⟩ "posts" [("id", id), ("title", title), ("tags", tags)],
      some ⟨"posts_pkey", [id]⟩, [⟨"posts_tags", .gin, [tags]⟩],
      [⟨"posts_title_id", [title, id]⟩]⟩,
    .withConstraints ⟨2⟩ "empty" [] none [] []]⟩

theorem load_posts_same :
    ∃ copy, Database.ofJson ⟨7⟩ posts.toJson = .ok copy ∧
      load ⟨7⟩ (some (render posts)) = .ok copy ∧
      copy.name = "blog" ∧ copy.contents = posts.contents ∧
      copy.toJson = posts.toJson ∧ render copy = render posts ∧
      ∀ other : Database,
        (diff copy other).map DatabaseDelta.content = (diff posts other).map DatabaseDelta.content ∧
        (diff other copy).map DatabaseDelta.content =
          (diff other posts).map DatabaseDelta.content :=
  load_render_same (show posts.ListsFirst by decide) ⟨7⟩

end SchemaFile

namespace Document

theorem find?_of_resolve {table : String} {definitions columns : List ColumnDef}
    {names : List String} (h : resolve table definitions names = .ok columns) {d : ColumnDef}
    (hd : d ∈ columns) : definitions.find? (·.name == d.name) = some d := by
  obtain ⟨name, -, hname⟩ := exists_of_mem_mapM h hd
  split at hname
  next o ho =>
    obtain rfl := Except.ok.inj hname
    exact find?_name_of_find? ho
  next => cases hname

theorem find?_of_resolveKey {table : String} {definitions : List ColumnDef} {c : RawConstraint}
    {k : Key} (h : resolveKey table definitions c = .ok k) :
    ∀ d ∈ k.columns, definitions.find? (·.name == d.name) = some d := by
  obtain ⟨columns, hcolumns, rfl⟩ := map_eq_ok.mp h
  exact fun d hd => find?_of_resolve hcolumns hd

theorem find?_of_resolveIndex {table : String} {definitions : List ColumnDef} {c : RawConstraint}
    {i : Index} (h : resolveIndex table definitions c = .ok i) :
    ∀ d ∈ i.columns, definitions.find? (·.name == d.name) = some d := by
  obtain ⟨columns, hcolumns, rfl⟩ := map_eq_ok.mp h
  exact fun d hd => find?_of_resolve hcolumns hd

theorem exists_of_readTable {id : TableId} {v : Json} {t : Table} (h : readTable id v = .ok t) :
    ∃ members, t.id = id ∧ t.columns = Table.bindAll id t.name members ∧
      ∃ indices uniques : List RawConstraint,
        (∀ k ∈ t.primaryKey, ∃ c, resolveKey t.name t.definitions c = .ok k) ∧
        indices.mapM (resolveIndex t.name t.definitions) = .ok t.indices ∧
        uniques.mapM (resolveKey t.name t.definitions) = .ok t.uniques := by
  simp only [readTable, bind_eq_ok] at h
  obtain ⟨-, -, f, -, name, -, members, -, h⟩ := h
  have hdefinitions : (Table.bindAll id name members).map (·.definition) = members.map (·.2) := by
    simp [Table.bindAll, Function.comp_def]
  split at h
  next c _ =>
    simp only [bind_eq_ok, pure_eq_ok] at h
    obtain ⟨key, hkey, indices, hindices, uniques, huniques, rfl⟩ := h
    obtain ⟨k, hk, rfl⟩ := map_eq_ok.mp hkey
    refine ⟨members, rfl, rfl, _, _, ?_, by rwa [Table.definitions, hdefinitions],
      by rwa [Table.definitions, hdefinitions]⟩
    rintro o ho
    obtain rfl : k = o := Option.some.inj ho
    exact ⟨c, by rwa [Table.definitions, hdefinitions]⟩
  next =>
    simp only [ok_bind, bind_eq_ok, pure_eq_ok] at h
    obtain ⟨indices, hindices, uniques, huniques, rfl⟩ := h
    exact ⟨members, rfl, rfl, _, _, by simp, by rwa [Table.definitions, hdefinitions],
      by rwa [Table.definitions, hdefinitions]⟩

theorem listsFirst_of_readTable {id : TableId} {v : Json} {t : Table}
    (h : readTable id v = .ok t) : t.ListsFirst := by
  obtain ⟨-, -, -, indices, uniques, hkey, hindices, huniques⟩ := exists_of_readTable h
  intro d hd
  simp only [Table.listedColumns, List.mem_append, List.mem_flatMap, Option.mem_toList] at hd
  rcases hd with (⟨k, hk, hd⟩ | ⟨i, hi, hd⟩) | ⟨k, hk, hd⟩
  · obtain ⟨c, hc⟩ := hkey k hk
    exact find?_of_resolveKey hc d hd
  · obtain ⟨c, -, hc⟩ := exists_of_mem_mapM hindices hi
    exact find?_of_resolveIndex hc d hd
  · obtain ⟨c, -, hc⟩ := exists_of_mem_mapM huniques hk
    exact find?_of_resolveKey hc d hd

theorem listsFirst_of_readTables {vs : List (Read Json)} {id : TableId} {ts : List Table}
    (h : readTables id vs = .ok ts) : ∀ t ∈ ts, t.ListsFirst := by
  induction vs generalizing id ts with
  | nil =>
    obtain rfl := Except.ok.inj h
    simp
  | cons v vs ih =>
    simp only [readTables, bind_eq_ok] at h
    obtain ⟨w, -, t, ht, rest, hrest, h⟩ := h
    obtain rfl := pure_eq_ok.mp h
    rintro u hu
    rcases List.mem_cons.mp hu with rfl | hu
    · exact listsFirst_of_readTable ht
    · exact ih hrest u hu

theorem exists_readTables_of_databaseField {first : TableId} {f next : DatabaseFields}
    (hf : ∀ ts, f.tables = some ts → ∃ vs, readTables first vs = .ok ts) {field : String × Json}
    (h : databaseField first f field = .ok next) :
    ∀ ts, next.tables = some ts → ∃ vs, readTables first vs = .ok ts := by
  obtain ⟨key, v⟩ := field
  simp only [databaseField] at h
  split at h
  · obtain ⟨_, -, h⟩ := bind_eq_ok.mp h
    obtain rfl := pure_eq_ok.mp h
    exact hf
  · obtain ⟨filled, hfilled, h⟩ := bind_eq_ok.mp h
    obtain rfl := pure_eq_ok.mp h
    rintro ts rfl
    unfold fill at hfilled
    split at hfilled
    next => cases hfilled
    next =>
      obtain ⟨us, hus, he⟩ := map_eq_ok.mp hfilled
      obtain rfl := Option.some.inj he
      obtain ⟨items, -, hitems⟩ := bind_eq_ok.mp hus
      exact ⟨items, hitems⟩
  · obtain rfl := Except.ok.inj h
    exact hf

theorem exists_readTables_of_ofJson {first : TableId} {v : Json} {db : Database}
    (h : Database.ofJson first v = .ok db) : ∃ vs, readTables first vs = .ok db.tables := by
  simp only [Database.ofJson, bind_eq_ok] at h
  obtain ⟨fields, -, f, hf, name, -, ts, hts, h⟩ := h
  obtain rfl := pure_eq_ok.mp h
  have hkeeps : ∀ ts, f.tables = some ts → ∃ vs, readTables first vs = .ok ts := by
    refine foldlM_keeps (P := fun f : DatabaseFields =>
      ∀ ts, f.tables = some ts → ∃ vs, readTables first vs = .ok ts) ?_ (by simp) hf
    intro g hg field _ next hnext
    obtain ⟨content, -, hnext⟩ := bind_eq_ok.mp hnext
    exact exists_readTables_of_databaseField hg hnext
  unfold require at hts
  split at hts
  next us hus =>
    obtain rfl := Except.ok.inj hts
    exact hkeeps us hus
  next => cases hts

end Document

namespace SchemaFile

theorem exists_readTables_of_load {first : TableId} {content : Option String} {db : Database}
    (h : load first content = .ok db) : ∃ vs, Document.readTables first vs = .ok db.tables := by
  unfold load at h
  split at h
  next => cases h
  next text =>
    split at h
    next hjson =>
      obtain rfl := Except.ok.inj h
      exact Document.exists_readTables_of_ofJson hjson
    next => cases h

/-- What was loaded can be saved again. -/
theorem listsFirst_of_load {first : TableId} {content : Option String} {db : Database}
    (h : load first content = .ok db) : db.ListsFirst := by
  obtain ⟨vs, hvs⟩ := exists_readTables_of_load h
  exact Document.listsFirst_of_readTables hvs

end SchemaFile

end DeclarativeSql
