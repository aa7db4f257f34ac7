import DeclarativeSql.Proofs.Record.Declared
import DeclarativeSql.Proofs.Record.Positions
import DeclarativeSql.Proofs.Rendering.SelectList

/-!
# The order of fields

Whatever is made for a record goes by the order of its fields: the columns of its table and of every
copy of that table, the members that the fields are bound to, the items of its select list, and the
values of a row that is read.
-/
namespace DeclarativeSql

namespace RecordMapping

variable {item : AnnotatedItem FieldType} {m : RecordMapping FieldType}
  {fields : List (AnnotatedField FieldType)} {t u : Table}

theorem ofItem_eq_ok {τ : Type} {item : AnnotatedItem τ} {m : RecordMapping τ}
    (h : ofItem item = .ok m) :
    ∃ fields, item.body = .named fields ∧ fields.mapM columnOf = .ok m.columns := by
  unfold ofItem at h
  split at h
  next => cases h
  next =>
    split at h
    next => cases h
    next => cases h
    next fields hbody =>
      split at h
      next => cases h
      next columns hcolumns =>
        obtain rfl := Except.ok.inj h
        exact ⟨fields, hbody, hcolumns⟩

theorem fieldTypes_eq (h : fields.mapM columnOf = .ok m.columns) :
    m.fieldTypes = fields.map (·.fieldType) := by
  have htypes : List.Forall₂ (· = ·) (fields.map (·.fieldType)) m.fieldTypes := by
    rw [fieldTypes, List.forall₂_map_left_iff, List.forall₂_map_right_iff]
    exact (mapM_eq_ok_iff.mp h).imp fun f c hc => (columnOf_eq_ok hc).2.2.1.symm
  rw [List.forall₂_eq_eq_eq] at htypes
  exact htypes.symm

theorem table_of_mem {columns : List Column}
    (h : List.Forall₂ (fun f c => f.IsBound t c) fields columns) {c : Column} (hc : c ∈ columns) :
    c.table = t.id := by
  induction h with
  | nil => cases hc
  | cons hbound _ ih =>
    rcases List.mem_cons.mp hc with rfl | hc
    · exact hbound.table
    · exact ih hc

/-- A table of the record has a column for each field, in the fields' order. They are what the
fields are bound to, and they stand in this order where they are selected. -/
structure Matches (m : RecordMapping FieldType) (fields : List (AnnotatedField FieldType))
    (t : Table) : Prop where
  columns : List.Forall₂ (fun f c => f.IsBound t c) fields t.columns
  bind : m.bind t = .ok t.columns
  select : ∀ operations : List Arena.Operation, (Arena.empty.run operations).SelectsInOrder t

/-- The record is read from the values of a row in the fields' order, up to the first one that does
not convert. -/
structure ReadsInOrder (m : RecordMapping FieldType) (fields : List (AnnotatedField FieldType)) :
    Prop where
  types : m.fieldTypes = fields.map (·.fieldType)
  read_eq_ok_iff : ∀ {row : Row} {r : Fields m.fieldTypes}, m.read row = .ok r ↔
    ∀ i : Fin m.fieldTypes.length, ∃ v, row.values[i.val]? = some v ∧
      m.fieldTypes[i].ofValue? v = some (Fields.get m.fieldTypes r i)
  read_eq_error_iff : ∀ {row : Row} {e : Error}, m.read row = .error e ↔
    ∃ i : Fin m.fieldTypes.length, (∀ v ∈ row.values[i.val]?, ¬ m.fieldTypes[i].Fits v) ∧
      e = .rowMapping i m.fieldTypes[i].expected
        (row.values[i.val]?.elim "no column" Value.kind) ∧
      ∀ j < i, ∃ v, row.values[j.val]? = some v ∧ m.fieldTypes[j].Fits v

theorem readsInOrder (hm : fields.mapM columnOf = .ok m.columns) : m.ReadsInOrder fields := by
  refine ⟨fieldTypes_eq hm, fun {row r} => ?_, fun {row e} => ?_⟩
  · simp only [read, Fields.read, Fields.readFrom_eq_ok_iff_get, Nat.zero_add, Row.read_eq_ok_iff]
  · simp only [read, Fields.read, Fields.readFrom_eq_error_iff, Nat.zero_add,
      Row.read_eq_error_iff, Row.exists_read_iff, and_assoc]

/-- Everything that is made for a record goes by the order of its fields, on the declared table and
on all copies of it. -/
theorem IsDeclared.keeps_order (ht : m.IsDeclared t) (hm : ofItem item = .ok m) :
    ∃ fields, item.body = .named fields ∧ (∀ u, t.IsCopy u → m.Matches fields u) ∧
      m.ReadsInOrder fields := by
  obtain ⟨fields, hbody, hcolumns⟩ := ofItem_eq_ok hm
  refine ⟨fields, hbody, fun u hu => ?_, readsInOrder hcolumns⟩
  have hbound := forall₂_isBound_of_isCopy hu (ht.forall₂_isBound hcolumns)
  refine ⟨hbound, ht.bind_of_isCopy hu, fun operations => ?_⟩
  exact (Arena.empty_isForest.run operations).selectsInOrder
    (Arena.run_isRegistered operations) fun c hc => table_of_mem hbound hc

/-- A record whose annotations repeat themselves, name a column and list two tiers. -/
def review : AnnotatedItem FieldType :=
  ⟨"BookReview", [], .named [
    ⟨"id", .scalar .int64,
      [⟨"column", some [⟨"primary_key", none⟩]⟩, ⟨"doc", none⟩,
        ⟨"column", some [⟨"serial", none⟩, ⟨"primary_key", none⟩]⟩]⟩,
    ⟨"title", .scalar .text,
      [⟨"column", some [⟨"name", some (.text "heading")⟩,
        ⟨"index", some (.source [⟨.number, ['2']⟩])⟩,
        ⟨"index", some (.source [⟨.number, ['3']⟩])⟩]⟩]⟩,
    ⟨"stars", .optional (.scalar .int16), []⟩]⟩

/-- The columns of the record, and the members that they are bound to. -/
def reviewColumns : List (String × ColumnDef) :=
  [("id", ⟨"id", .scalar .int64, .primaryKey ||| .serial⟩),
    ("title", ⟨"heading", .scalar .text, .indexTier 2 ||| .indexTier 3⟩),
    ("stars", ⟨"stars", .scalar .int16, .nullable⟩)]

theorem review_keeps_order : ∃ m t fields, ofItem review = .ok m ∧ m.declare ⟨7⟩ = .ok t ∧
    t.columns.map (fun c => (c.member, c.definition)) = reviewColumns ∧
    review.body = .named fields ∧ m.Matches fields t ∧ m.Matches fields (t.aliased ⟨8⟩) ∧
    m.ReadsInOrder fields := by
  obtain ⟨m, hm, t, ht, hcolumns⟩ : ∃ m, ofItem review = .ok m ∧ ∃ t, m.declare ⟨7⟩ = .ok t ∧
      t.columns.map (fun c => (c.member, c.definition)) = reviewColumns := ⟨_, rfl, _, rfl, rfl⟩
  obtain ⟨fields, hbody, hmatches, hreads⟩ := (IsDeclared.alone ht).keeps_order hm
  exact ⟨m, t, fields, hm, ht, hcolumns, hbody, hmatches t .self, hmatches _ (.aliased ⟨8⟩ .self),
    hreads⟩

end RecordMapping

end DeclarativeSql
