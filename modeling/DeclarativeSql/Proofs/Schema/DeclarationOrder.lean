import DeclarativeSql.Proofs.Schema.Contents
import DeclarativeSql.Proofs.Schema.Draft
import DeclarativeSql.Proofs.Schema.Registry

/-!
# Declarations in any order

Tables are declared one after the other, and what one of them registers is there when the next one
asks. A list of declarations is accepted exactly if no name is taken twice, no serial column is
unable to count and every column name has one type, in all tables and in what was registered before.
None of this depends on an order, and neither does what a table says.
-/
namespace DeclarativeSql

/-- A member that asks for the shared definition of a column. -/
structure ColumnRequest where
  member : String
  name : String
  fieldType : FieldType
  flags : ColumnFlags

namespace ColumnRequest

def step (q : ColumnRequest) : DeclareStep := .column q.member q.name q.fieldType q.flags

/-- The definition that the member is bound to. -/
def definition (q : ColumnRequest) : ColumnDef :=
  ⟨q.name, q.fieldType.sqlType, q.flags ||| q.fieldType.implied⟩

end ColumnRequest

structure TableRequest where
  name : String
  columns : List ColumnRequest

namespace TableRequest

def definitions (t : TableRequest) : List ColumnDef := t.columns.map ColumnRequest.definition

/-- The table that is asked for. -/
def table (t : TableRequest) (id : TableId) : Table :=
  .ofColumns id t.name
    (Table.bindAll id t.name (t.columns.map fun q => (q.member, q.definition)))

def content (t : TableRequest) : TableContent := (t.table ⟨0⟩).content

/-- What the table says does not depend on its identity. -/
theorem content_table (t : TableRequest) (id : TableId) : (t.table id).content = t.content := by
  simp [content, table, Table.content, Table.ofColumns, Table.bindAll, Function.comp_def]

end TableRequest

/-- Declares tables one after the other, up to the first refusal. -/
def SchemaBuilder.declareAll (b : SchemaBuilder) :
    List TableRequest → Except ConstructionError SchemaBuilder
  | [] => .ok b
  | t :: ts =>
    match b.declare t.name (t.columns.map ColumnRequest.step) with
    | .error e => .error e
    | .ok b => b.declareAll ts

namespace TableDraft

variable {draft next last : TableDraft} {q : ColumnRequest} {qs : List ColumnRequest}

/-- The members can be bound, whatever their order is. -/
structure Accepts (draft : TableDraft) (qs : List ColumnRequest) : Prop where
  members : (draft.columns.map Column.member ++ qs.map ColumnRequest.member).Nodup
  names : (draft.columns.map Column.name ++ qs.map ColumnRequest.name).Nodup
  valid : ∀ q ∈ qs, q.definition.validate = .ok ()
  types : draft.registry.AgreesOn (qs.map ColumnRequest.definition)

/-- The members are bound, and the registry remembers the types of their columns. -/
structure HasBound (draft : TableDraft) (qs : List ColumnRequest) (last : TableDraft) : Prop where
  id : last.id = draft.id
  name : last.name = draft.name
  columns : last.columns = draft.columns ++ qs.map fun q => draft.bound q.member q.definition
  registry : last.registry.IsSound
  asks : ∀ ds name t, last.registry.Asks ds name t ↔
    draft.registry.Asks (qs.map ColumnRequest.definition ++ ds) name t

theorem HasBound.cons (hfirst : draft.HasBound [q] next) (hrest : next.HasBound qs last) :
    draft.HasBound (q :: qs) last where
  id := hrest.id.trans hfirst.id
  name := hrest.name.trans hfirst.name
  columns := by
    rw [hrest.columns, hfirst.columns, List.append_assoc]
    simp [bound, hfirst.id, hfirst.name]
  registry := hrest.registry
  asks ds name t := by
    rw [hrest.asks, hfirst.asks]
    rfl

theorem Accepts.head (h : draft.Accepts (q :: qs)) : draft.Accepts [q] where
  members := h.members.sublist (by simp)
  names := h.names.sublist (by simp)
  valid := List.forall_mem_singleton.mpr (h.valid q List.mem_cons_self)
  types := h.types.mono (List.map_subset _ (by simp))

theorem HasBound.accepts_iff (h : draft.HasBound [q] next) (hfirst : draft.Accepts [q]) :
    next.Accepts qs ↔ draft.Accepts (q :: qs) := by
  have hmembers : next.columns.map Column.member ++ qs.map ColumnRequest.member =
      draft.columns.map Column.member ++ (q :: qs).map ColumnRequest.member := by
    simp [h.columns, bound]
  have hnames : next.columns.map Column.name ++ qs.map ColumnRequest.name =
      draft.columns.map Column.name ++ (q :: qs).map ColumnRequest.name := by
    simp [h.columns, bound, Column.name, ColumnRequest.definition]
  have htypes : next.registry.AgreesOn (qs.map ColumnRequest.definition) ↔
      draft.registry.AgreesOn ((q :: qs).map ColumnRequest.definition) :=
    Registry.agreesOn_cons_iff h.asks
  constructor
  · intro hrest
    exact ⟨hmembers ▸ hrest.members, hnames ▸ hrest.names,
      List.forall_mem_cons.mpr ⟨hfirst.valid q List.mem_cons_self, hrest.valid⟩,
      htypes.mp hrest.types⟩
  · intro hall
    exact ⟨hmembers ▸ hall.members, hnames ▸ hall.names, (List.forall_mem_cons.mp hall.valid).2,
      htypes.mpr hall.types⟩

theorem IsSound.accepts_nil (h : draft.IsSound) : draft.Accepts [] where
  members := by simpa using h.members
  names := by simpa using h.names
  valid := by simp
  types := Registry.agreesOn_nil

theorem IsSound.accepts_singleton_iff (h : draft.IsSound) : draft.Accepts [q] ↔
    draft.checkBind q.member q.definition = .ok () ∧ draft.registry.AgreesOn [q.definition] := by
  have hmember : (draft.columns.map Column.member ++ [q.member]).Nodup ↔
      q.member ∉ draft.columns.map Column.member := by
    rw [← List.concat_eq_append, List.nodup_concat]
    exact and_iff_left h.members
  have hname : (draft.columns.map Column.name ++ [q.name]).Nodup ↔
      q.name ∉ draft.columns.map Column.name := by
    rw [← List.concat_eq_append, List.nodup_concat]
    exact and_iff_left h.names
  rw [checkBind_eq_ok_iff]
  constructor
  · intro ha
    exact ⟨⟨hmember.mp ha.members, hname.mp ha.names, ha.valid q List.mem_cons_self⟩, ha.types⟩
  · rintro ⟨⟨hm, hn, hvalid⟩, htypes⟩
    exact ⟨hmember.mpr hm, hname.mpr hn, by simpa using hvalid, htypes⟩

theorem step_eq_ok_iff {c : Column} : draft.step q.step = (.ok c, next) ↔
    ∃ defined registry,
      draft.registry.define q.definition.name q.definition.sqlType q.definition.flags =
        (.ok defined, registry) ∧
      draft.checkBind q.member defined.definition = .ok () ∧
      c = draft.bound q.member defined.definition ∧
      next = { draft with registry, columns := draft.columns ++ [c] } := by
  constructor
  · intro h
    simp only [ColumnRequest.step, step, column] at h
    split at h
    next => cases h
    next defined registry hdefine =>
      unfold bind at h
      split at h
      next => cases h
      next hok =>
        obtain ⟨hc, rfl⟩ := Prod.mk.inj h
        obtain rfl := Except.ok.inj hc
        exact ⟨defined, registry, hdefine, hok, rfl, rfl⟩
  · rintro ⟨defined, registry, hdefine, hok, rfl, rfl⟩
    have hcolumn : draft.registry.column q.name q.fieldType q.flags = (.ok defined, registry) :=
      hdefine
    have hcheck : checkBind { draft with registry } q.member defined.definition = .ok () := hok
    simp only [ColumnRequest.step, step, column, hcolumn, bind, hcheck]
    rfl

theorem exists_step_iff (hr : draft.registry.IsSound) (hd : draft.IsSound) :
    (∃ c next, draft.step q.step = (.ok c, next)) ↔ draft.Accepts [q] := by
  rw [hd.accepts_singleton_iff]
  constructor
  · rintro ⟨c, next, h⟩
    obtain ⟨defined, registry, hdefine, hcheck, -, -⟩ := step_eq_ok_iff.mp h
    rw [(hr.define hdefine).1] at hcheck
    exact ⟨hcheck, (hr.exists_define_iff.mp ⟨_, _, hdefine⟩).1⟩
  · rintro ⟨hcheck, htypes⟩
    obtain ⟨defined, registry, hdefine⟩ :=
      hr.exists_define_iff.mpr ⟨htypes, (checkBind_eq_ok_iff.mp hcheck).2.2⟩
    rw [← (hr.define hdefine).1] at hcheck
    exact ⟨_, _, step_eq_ok_iff.mpr ⟨defined, registry, hdefine, hcheck, rfl, rfl⟩⟩

theorem hasBound_of_step (hr : draft.registry.IsSound) {c : Column}
    (h : draft.step q.step = (.ok c, next)) : draft.HasBound [q] next := by
  obtain ⟨defined, registry, hdefine, -, rfl, rfl⟩ := step_eq_ok_iff.mp h
  obtain ⟨hdefined, hregistry, hasks⟩ := hr.define hdefine
  rw [hdefined]
  exact ⟨rfl, rfl, rfl, hregistry, hasks⟩

theorem hasBound_of_run (hr : draft.registry.IsSound)
    (h : (draft.run (qs.map ColumnRequest.step)).2 = .ok last) : draft.HasBound qs last := by
  induction qs generalizing draft with
  | nil =>
    obtain rfl : draft = last := Except.ok.inj h
    exact ⟨rfl, rfl, by simp, hr, fun _ _ _ => .rfl⟩
  | cons q qs ih =>
    rw [List.map_cons, run] at h
    split at h
    next hstep =>
      have hfirst := hasBound_of_step hr hstep
      exact hfirst.cons (ih hfirst.registry h)
    next => cases h

theorem exists_run_iff (hr : draft.registry.IsSound) (hd : draft.IsSound) :
    (∃ last, (draft.run (qs.map ColumnRequest.step)).2 = .ok last) ↔ draft.Accepts qs := by
  induction qs generalizing draft with
  | nil => exact iff_of_true ⟨draft, rfl⟩ hd.accepts_nil
  | cons q qs ih =>
    rw [List.map_cons, run]
    split
    next c next hstep =>
      have hfirst := hasBound_of_step hr hstep
      have hsound : next.IsSound := by
        have := hd.step q.step
        rwa [hstep] at this
      rw [ih hfirst.registry hsound]
      exact hfirst.accepts_iff ((exists_step_iff hr hd).mp ⟨c, next, hstep⟩)
    next e _ hstep =>
      constructor
      · rintro ⟨_, h⟩
        cases h
      · intro hall
        obtain ⟨c, next, hok⟩ := (exists_step_iff hr hd).mpr hall.head
        rw [hstep] at hok
        cases hok

/-- A step that is refused may register a definition, which is as good as any. -/
theorem isSound_registry_step (hr : draft.registry.IsSound) (s : DeclareStep) :
    (draft.step s).2.registry.IsSound := by
  cases s with
  | column member name t flags =>
    have hnext : (draft.registry.column name t flags).2.IsSound :=
      hr.next name t.sqlType (flags ||| t.implied)
    simp only [step, column]
    split
    next hdefine => rwa [hdefine] at hnext
    next hdefine =>
      rw [hdefine] at hnext
      rwa [bind_frame]
  | bind member d =>
    rw [step, bind_frame]
    exact hr
  | lookup member => exact hr

theorem isSound_registry_attempt (hr : draft.registry.IsSound) (steps : List DeclareStep) :
    (draft.attempt steps).registry.IsSound := by
  induction steps generalizing draft with
  | nil => exact hr
  | cons s steps ih => exact ih (isSound_registry_step hr s)

end TableDraft

namespace SchemaBuilder

variable {b next last : SchemaBuilder} {t : TableRequest} {ts us : List TableRequest}

theorem IsBuilt.isSound_registry (h : b.IsBuilt) : b.registry.IsSound := by
  induction h with
  | new => exact Registry.isSound_empty
  | define name sqlType flags _ ih => exact ih.next name sqlType flags
  | declare steps _ henter ih =>
    obtain ⟨-, rfl⟩ := enter_eq_ok_iff.mp henter
    exact TableDraft.isSound_registry_attempt ih steps

/-- The tables can be declared, whatever their order is. -/
structure Accepts (b : SchemaBuilder) (ts : List TableRequest) : Prop where
  names : (b.tables.map Table.name ++ ts.map TableRequest.name).Nodup
  members : ∀ t ∈ ts, (t.columns.map ColumnRequest.member).Nodup
  columns : ∀ t ∈ ts, (t.columns.map ColumnRequest.name).Nodup
  valid : ∀ t ∈ ts, ∀ q ∈ t.columns, q.definition.validate = .ok ()
  types : b.registry.AgreesOn (ts.flatMap TableRequest.definitions)

/-- Nothing that decides about tables depends on their order. -/
theorem Accepts.perm (h : b.Accepts ts) (hperm : ts.Perm us) : b.Accepts us where
  names := ((hperm.map _).append_left _).nodup_iff.mp h.names
  members t ht := h.members t (hperm.mem_iff.mpr ht)
  columns t ht := h.columns t (hperm.mem_iff.mpr ht)
  valid t ht := h.valid t (hperm.mem_iff.mpr ht)
  types := h.types.mono (hperm.flatMap_right _).symm.subset

/-- The tables are declared, and the registry remembers the types of their columns. -/
structure HasDeclared (b : SchemaBuilder) (ts : List TableRequest) (last : SchemaBuilder) :
    Prop where
  contents : last.build.contents = b.build.contents ++ ts.map TableRequest.content
  built : last.IsBuilt
  asks : ∀ ds name t, last.registry.Asks ds name t ↔
    b.registry.Asks (ts.flatMap TableRequest.definitions ++ ds) name t

theorem HasDeclared.cons (hfirst : b.HasDeclared [t] next) (hrest : next.HasDeclared ts last) :
    b.HasDeclared (t :: ts) last where
  contents := by
    rw [hrest.contents, hfirst.contents, List.append_assoc]
    rfl
  built := hrest.built
  asks ds name u := by
    rw [hrest.asks, hfirst.asks]
    simp

theorem hasDeclared_of_declare (h : b.IsBuilt)
    (hdeclare : b.declare t.name (t.columns.map ColumnRequest.step) = .ok next) :
    b.HasDeclared [t] next := by
  have hbuilt := h.declared hdeclare
  unfold declare at hdeclare
  split at hdeclare
  next => cases hdeclare
  next draft henter =>
    obtain ⟨-, rfl⟩ := enter_eq_ok_iff.mp henter
    split at hdeclare
    next => cases hdeclare
    next last hrun =>
      obtain rfl := Except.ok.inj hdeclare
      have hbound := TableDraft.hasBound_of_run h.isSound_registry hrun
      refine ⟨?_, hbuilt, ?_⟩
      · have hfinish : last.finish = t.table b.next := by
          rw [TableDraft.finish, hbound.id, hbound.name, hbound.columns]
          simp [TableRequest.table, Table.bindAll, TableDraft.bound, Function.comp_def]
        simp [Database.contents, build, leave, hfinish, TableRequest.content_table]
      · intro ds name u
        rw [List.flatMap_singleton]
        exact hbound.asks ds name u

theorem IsBuilt.accepts_nil (h : b.IsBuilt) : b.Accepts [] where
  names := by simpa using h.names
  members := by simp
  columns := by simp
  valid := by simp
  types := Registry.agreesOn_nil

theorem IsBuilt.accepts_singleton_iff (h : b.IsBuilt) : b.Accepts [t] ↔
    t.name ∉ b.tables.map Table.name ∧
      TableDraft.Accepts ⟨b.registry, b.next, t.name, []⟩ t.columns := by
  have hname : (b.tables.map Table.name ++ [t.name]).Nodup ↔
      t.name ∉ b.tables.map Table.name := by
    rw [← List.concat_eq_append, List.nodup_concat]
    exact and_iff_left h.names
  constructor
  · intro ha
    refine ⟨hname.mp ha.names, ha.members t List.mem_cons_self, ha.columns t List.mem_cons_self,
      ha.valid t List.mem_cons_self, ?_⟩
    exact ha.types.mono (by simp [TableRequest.definitions])
  · rintro ⟨hnew, hdraft⟩
    refine ⟨hname.mpr hnew, by simpa using hdraft.members, by simpa using hdraft.names,
      by simpa using hdraft.valid, ?_⟩
    exact hdraft.types.mono (by simp [TableRequest.definitions])

/-- A table is accepted if its name is new and its members can be bound. -/
theorem exists_declare_iff (h : b.IsBuilt) :
    (∃ next, b.declare t.name (t.columns.map ColumnRequest.step) = .ok next) ↔ b.Accepts [t] := by
  rw [h.accepts_singleton_iff, ← TableDraft.exists_run_iff h.isSound_registry
    (TableDraft.isSound_new _ _ _)]
  unfold declare
  by_cases hnew : t.name ∈ b.tables.map Table.name
  · have henter : b.enter t.name = .error (.duplicateTable t.name) := by
      unfold enter
      rw [if_pos (by simpa using hnew)]
    simp [henter, hnew]
  · rw [enter_eq_ok_iff.mpr ⟨hnew, rfl⟩, and_iff_right hnew]
    dsimp only
    constructor
    · rintro ⟨next, hdeclare⟩
      split at hdeclare
      next => cases hdeclare
      next last hrun => exact ⟨last, hrun⟩
    · rintro ⟨last, hrun⟩
      rw [hrun]
      exact ⟨_, rfl⟩

theorem Accepts.head (h : b.Accepts (t :: ts)) : b.Accepts [t] where
  names := h.names.sublist (by simp)
  members := List.forall_mem_singleton.mpr (h.members t List.mem_cons_self)
  columns := List.forall_mem_singleton.mpr (h.columns t List.mem_cons_self)
  valid := List.forall_mem_singleton.mpr (h.valid t List.mem_cons_self)
  types := h.types.mono (by simp)

theorem HasDeclared.accepts_iff (h : b.HasDeclared [t] next) (hfirst : b.Accepts [t]) :
    next.Accepts ts ↔ b.Accepts (t :: ts) := by
  have hnames : next.tables.map Table.name ++ ts.map TableRequest.name =
      b.tables.map Table.name ++ (t :: ts).map TableRequest.name := by
    have hcontents := congrArg (List.map TableContent.name) h.contents
    simp only [Database.contents, build, List.map_append, List.map_map] at hcontents
    change next.tables.map Table.name = b.tables.map Table.name ++ [t.name] at hcontents
    rw [hcontents, List.append_assoc]
    rfl
  have htypes : next.registry.AgreesOn (ts.flatMap TableRequest.definitions) ↔
      b.registry.AgreesOn ((t :: ts).flatMap TableRequest.definitions) := by
    simp [Registry.AgreesOn, h.asks]
  constructor
  · intro hrest
    exact ⟨hnames ▸ hrest.names,
      List.forall_mem_cons.mpr ⟨hfirst.members t List.mem_cons_self, hrest.members⟩,
      List.forall_mem_cons.mpr ⟨hfirst.columns t List.mem_cons_self, hrest.columns⟩,
      List.forall_mem_cons.mpr ⟨hfirst.valid t List.mem_cons_self, hrest.valid⟩,
      htypes.mp hrest.types⟩
  · intro hall
    exact ⟨hnames ▸ hall.names, (List.forall_mem_cons.mp hall.members).2,
      (List.forall_mem_cons.mp hall.columns).2, (List.forall_mem_cons.mp hall.valid).2,
      htypes.mpr hall.types⟩

theorem hasDeclared_of_declareAll (h : b.IsBuilt) (hall : b.declareAll ts = .ok last) :
    b.HasDeclared ts last := by
  induction ts generalizing b with
  | nil =>
    obtain rfl : b = last := Except.ok.inj hall
    exact ⟨by simp, h, fun _ _ _ => .rfl⟩
  | cons t ts ih =>
    unfold declareAll at hall
    split at hall
    next => cases hall
    next next hdeclare =>
      have hfirst := hasDeclared_of_declare h hdeclare
      exact hfirst.cons (ih hfirst.built hall)

theorem exists_declareAll_iff (h : b.IsBuilt) :
    (∃ last, b.declareAll ts = .ok last) ↔ b.Accepts ts := by
  induction ts generalizing b with
  | nil => exact iff_of_true ⟨b, rfl⟩ h.accepts_nil
  | cons t ts ih =>
    unfold declareAll
    split
    next e hdeclare =>
      constructor
      · rintro ⟨_, h⟩
        cases h
      · intro hall
        obtain ⟨next, hok⟩ := (exists_declare_iff h).mpr hall.head
        rw [hdeclare] at hok
        cases hok
    next next hdeclare =>
      have hfirst := hasDeclared_of_declare h hdeclare
      rw [ih hfirst.built]
      exact hfirst.accepts_iff ((exists_declare_iff h).mp ⟨next, hdeclare⟩)

end SchemaBuilder

theorem Table.agrees_of_content {t o : Table} (h : t.content = o.content) : t.Agrees o := by
  have hkey : t.primaryKey = o.primaryKey := congrArg TableContent.primaryKey h
  have hindices : t.indices = o.indices := congrArg TableContent.indices h
  have huniques : t.uniques = o.uniques := congrArg TableContent.uniques h
  constructor
  · rw [definitions_congr h]
  · rw [primaryKeySignature, primaryKeySignature, hkey]
  · rw [hindices]
  · rw [huniques]

theorem Database.agrees_of_contents_perm {a b : Database} (h : a.contents.Perm b.contents) :
    a.Agrees b where
  names := by
    have hnames := h.map TableContent.name
    rwa [contents, contents, List.map_map, List.map_map] at hnames
  tables t ht := by
    obtain ⟨o, ho, hcontent⟩ := List.mem_map.mp (h.subset (List.mem_map_of_mem ht))
    exact ⟨o, ho, congrArg TableContent.name hcontent, Table.agrees_of_content hcontent.symm⟩

/-- Tables that say the same, in any order, have one structure. -/
theorem Database.sameStructure_of_contents_perm {a b : Database}
    (h : a.contents.Perm b.contents) (hnames : (b.tables.map Table.name).Nodup)
    (hcolumns : ∀ t ∈ b.tables, t.columnNames.Nodup) : a.sameStructure b = true := by
  have hb : b.HasDistinctNames := ⟨hnames, hcolumns⟩
  have hagrees := agrees_of_contents_perm h
  exact (sameStructure_iff (hagrees.hasDistinctNames hb) hb).mpr hagrees

namespace SchemaBuilder

theorem IsBuilt.nodup_columnNames {b : SchemaBuilder} (h : b.IsBuilt) :
    ∀ t ∈ b.build.tables, t.columnNames.Nodup := by
  intro t ht
  obtain ⟨id, name, columns, rfl, hnames⟩ := h.ofColumns t ht
  rwa [Table.columnNames, Table.definitions_ofColumns, List.map_map]

/-- The order of declarations decides neither whether a database is built nor which one. -/
theorem declareAll_perm {b : SchemaBuilder} (h : b.IsBuilt) {ts us : List TableRequest}
    (hperm : ts.Perm us) :
    ((∃ x, b.declareAll ts = .ok x) ↔ ∃ y, b.declareAll us = .ok y) ∧
    ∀ x y, b.declareAll ts = .ok x → b.declareAll us = .ok y →
      x.build.sameStructure y.build = true := by
  constructor
  · rw [exists_declareAll_iff h, exists_declareAll_iff h]
    exact ⟨fun ha => ha.perm hperm, fun ha => ha.perm hperm.symm⟩
  · intro x y hx hy
    have hts := hasDeclared_of_declareAll h hx
    have hus := hasDeclared_of_declareAll h hy
    have hcontents : x.build.contents.Perm y.build.contents := by
      rw [hts.contents, hus.contents]
      exact (hperm.map _).append_left _
    exact Database.sameStructure_of_contents_perm hcontents hus.built.names
      hus.built.nodup_columnNames

end SchemaBuilder

namespace SharedColumns

/-- Two tables that number their rows by one column, each under a member of its own. -/
def users : TableRequest where
  name := "users"
  columns := [⟨"Id", "id", .scalar .int64, .primaryKey ||| .serial⟩,
    ⟨"Name", "name", .optional (.scalar .text), .indexTier 1⟩]

def posts : TableRequest where
  name := "posts"
  columns := [⟨"Post", "id", .scalar .int64, .primaryKey ||| .serial⟩,
    ⟨"Author", "name", .scalar .text, .uniqueTier 2⟩]

/-- A name is taken for a number. -/
def clash : TableRequest where
  name := "clash"
  columns := [⟨"Name", "name", .scalar .int32, .empty⟩]

theorem declared_in_both_orders :
    (∃ x y, (SchemaBuilder.new "app" ⟨0⟩).declareAll [users, posts] = .ok x ∧
      (SchemaBuilder.new "app" ⟨0⟩).declareAll [posts, users] = .ok y ∧
      x.build.sameStructure y.build = true) ∧
    ¬ (∃ x, (SchemaBuilder.new "app" ⟨0⟩).declareAll [users, clash] = .ok x) ∧
    ¬ ∃ y, (SchemaBuilder.new "app" ⟨0⟩).declareAll [clash, users] = .ok y := by
  have hswap : ∀ t u : TableRequest, [t, u].Perm [u, t] := fun t u => .swap u t []
  have hrefused : ¬ ∃ x, (SchemaBuilder.new "app" ⟨0⟩).declareAll [users, clash] = .ok x := by
    rintro ⟨x, hx⟩
    cases hx
  obtain ⟨x, hx⟩ : ∃ x, (SchemaBuilder.new "app" ⟨0⟩).declareAll [users, posts] = .ok x :=
    ⟨_, rfl⟩
  have hshared := SchemaBuilder.declareAll_perm (.new "app" ⟨0⟩) (hswap users posts)
  obtain ⟨y, hy⟩ := hshared.1.mp ⟨x, hx⟩
  exact ⟨⟨x, y, hx, hy, hshared.2 x y hx hy⟩, hrefused, fun h => hrefused
    ((SchemaBuilder.declareAll_perm (.new "app" ⟨0⟩) (hswap users clash)).1.mpr h)⟩

end SharedColumns

end DeclarativeSql
