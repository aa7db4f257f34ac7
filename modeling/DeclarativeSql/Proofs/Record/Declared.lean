import DeclarativeSql.Proofs.Record.Annotations
import DeclarativeSql.Proofs.Schema.DeclarationOrder

/-!
# Tables of records

The table of a record has one column for each field, in their order, on the table itself and on
every copy of it. The columns that the fields are bound to are the columns of the table.
-/
namespace DeclarativeSql

/-- The column is what the field asks for, on the table. -/
structure AnnotatedField.IsBound (field : AnnotatedField FieldType) (t : Table) (c : Column) :
    Prop where
  table : c.table = t.id
  tableName : c.tableName = t.name
  member : c.member = field.name
  name : c.name = field.columnName
  sqlType : c.definition.sqlType = field.fieldType.sqlType
  flags : ∀ n, c.definition.flags.has n = true ↔
    (∃ flag ∈ field.flags, flag.has n = true) ∨ field.fieldType.implied.has n = true

/-- The table itself, its copies, and copies of them. -/
inductive Table.IsCopy (t : Table) : Table → Prop
  | self : IsCopy t t
  | aliased {u : Table} (id : TableId) (h : IsCopy t u) : IsCopy t (u.aliased id)

variable {fields : List (AnnotatedField FieldType)} {t u : Table}

theorem forall₂_isBound_aliased (h : List.Forall₂ (fun f c => f.IsBound t c) fields t.columns)
    (id : TableId) :
    List.Forall₂ (fun f c => f.IsBound (t.aliased id) c) fields (t.aliased id).columns := by
  rw [Table.aliased, Table.bindAll, List.map_map, List.forall₂_map_right_iff]
  refine h.imp fun f c hc => ?_
  exact ⟨rfl, rfl, hc.member, hc.name, hc.sqlType, hc.flags⟩

namespace ColumnFlags

theorem has_foldl_iff {flags : List ColumnFlags} {a : ColumnFlags} {n : Nat} :
    (flags.foldl (· ||| ·) a).has n = true ↔
      a.has n = true ∨ ∃ flag ∈ flags, flag.has n = true := by
  induction flags generalizing a with
  | nil => simp
  | cons flag flags ih => simp [ih, or_assoc]

end ColumnFlags

namespace RecordMapping

variable {m : RecordMapping FieldType}

/-- The table is declared for the record, alone or in a database. -/
inductive IsDeclared (m : RecordMapping FieldType) : Table → Prop
  | alone {id : TableId} {t : Table} (h : m.declare id = .ok t) : IsDeclared m t
  | inDatabase {b next : SchemaBuilder} {t : Table} (hb : b.IsBuilt)
    (h : b.declare m.table m.steps = .ok next) (ht : next.tables = b.tables ++ [t]) :
    IsDeclared m t

/-- What is asked for by a field. -/
def request (c : MappedColumn FieldType) : ColumnRequest :=
  ⟨c.member, c.column, c.fieldType, c.flags.foldl (· ||| ·) .empty⟩

theorem steps_eq (m : RecordMapping FieldType) :
    m.steps = (m.columns.map request).map ColumnRequest.step := by
  rw [steps, List.map_map]
  rfl

/-- Either way the steps of the record are run. -/
theorem IsDeclared.exists_run (h : m.IsDeclared t) :
    ∃ (registry : Registry) (id : TableId) (last : TableDraft), registry.IsSound ∧
      (TableDraft.run ⟨registry, id, m.table, []⟩ m.steps).2 = .ok last ∧ t = last.finish := by
  cases h with
  | @alone id t h =>
    unfold declare at h
    split at h
    next => cases h
    next last hrun => exact ⟨_, id, last, Registry.isSound_empty, hrun, (Except.ok.inj h).symm⟩
  | @inDatabase b next t hb h ht =>
    unfold SchemaBuilder.declare at h
    split at h
    next => cases h
    next draft henter =>
      obtain ⟨-, rfl⟩ := SchemaBuilder.enter_eq_ok_iff.mp henter
      split at h
      next => cases h
      next last hrun =>
        obtain rfl := Except.ok.inj h
        obtain ⟨-, hlast⟩ := List.append_inj' ht rfl
        exact ⟨_, _, last, hb.isSound_registry, hrun, (List.singleton_inj.mp hlast).symm⟩

theorem IsDeclared.columns (h : m.IsDeclared t) : t.columns = m.columns.map (fun c =>
      ⟨(request c).definition, c.member, t.id, t.name⟩) ∧
    (t.columns.map Column.member).Nodup := by
  obtain ⟨registry, id, last, hregistry, hrun, rfl⟩ := h.exists_run
  rw [steps_eq] at hrun
  have hbound := TableDraft.hasBound_of_run hregistry hrun
  have hsound : last.IsSound := by
    rw [← TableDraft.attempt_of_run hrun]
    exact (TableDraft.isSound_new registry id m.table).attempt _
  have hcolumns : last.columns = m.columns.map fun c =>
      (⟨(request c).definition, c.member, last.id, last.name⟩ : Column) := by
    rw [hbound.columns, hbound.id, hbound.name, List.nil_append, List.map_map]
    rfl
  exact ⟨hcolumns, hsound.members⟩

theorem IsDeclared.forall₂_isBound (h : m.IsDeclared t)
    (hm : fields.mapM columnOf = .ok m.columns) :
    List.Forall₂ (fun f c => f.IsBound t c) fields t.columns := by
  rw [h.columns.1, List.forall₂_map_right_iff]
  refine (mapM_eq_ok_iff.mp hm).imp fun f c hc => ?_
  obtain ⟨hmember, hname, htype, hflags⟩ := columnOf_eq_ok hc
  refine ⟨rfl, rfl, hmember, hname, congrArg FieldType.sqlType htype, fun n => ?_⟩
  simp only [request, ColumnRequest.definition, ColumnFlags.has_or, Bool.or_eq_true,
    ColumnFlags.has_foldl_iff, ColumnFlags.has_empty, Bool.false_eq_true, false_or, hflags, htype]

theorem column_eq_ok (hnodup : (t.columns.map Column.member).Nodup) {c : Column}
    (hc : c ∈ t.columns) : t.column c.member = .ok c := by
  have hfind : t.column? c.member = some c :=
    (find?_eq_some_iff_of_nodup hnodup).mpr ⟨hc, rfl⟩
  rw [Table.column, hfind]

/-- Where the members are told apart, looking them up one by one gives all columns. -/
theorem bind_eq_columns (hnodup : (t.columns.map Column.member).Nodup)
    (hmembers : m.members = t.columns.map Column.member) : m.bind t = .ok t.columns := by
  rw [bind, hmembers]
  exact mapM_map_eq_ok fun c hc => column_eq_ok hnodup hc

theorem members_of_isCopy (h : t.IsCopy u) :
    u.columns.map Column.member = t.columns.map Column.member := by
  induction h with
  | self => rfl
  | @aliased u id _ ih =>
    rw [← ih, Table.aliased, Table.bindAll, List.map_map, List.map_map]
    rfl

theorem forall₂_isBound_of_isCopy (h : t.IsCopy u)
    (ht : List.Forall₂ (fun f c => f.IsBound t c) fields t.columns) :
    List.Forall₂ (fun f c => f.IsBound u c) fields u.columns := by
  induction h with
  | self => exact ht
  | aliased id _ ih => exact forall₂_isBound_aliased ih id

theorem IsDeclared.bind_of_isCopy (h : m.IsDeclared t) (hu : t.IsCopy u) :
    m.bind u = .ok u.columns := by
  have hmembers : m.members = t.columns.map Column.member := by
    rw [h.columns.1, members, List.map_map]
    rfl
  apply bind_eq_columns
  · rw [members_of_isCopy hu]
    exact h.columns.2
  · rw [members_of_isCopy hu, hmembers]

end RecordMapping

end DeclarativeSql
