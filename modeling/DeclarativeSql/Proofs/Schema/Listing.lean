import DeclarativeSql.Schema.Declaration
import DeclarativeSql.Proofs.Migration.Matching

/-!
# Columns that constraints list

Outside of memory a constraint lists its columns by name, and a name stands for the first column
that has it. Declared tables bind every name once, so all of their constraints can be named.
-/
namespace DeclarativeSql

namespace Table

/-- The columns that the constraints list. -/
def listedColumns (t : Table) : List ColumnDef :=
  t.primaryKey.toList.flatMap Key.columns ++ t.indices.flatMap Index.columns ++
    t.uniques.flatMap Key.columns

/-- Every column that a constraint lists is the first one of its name. -/
def ListsFirst (t : Table) : Prop :=
  ∀ d ∈ t.listedColumns, t.definitions.find? (·.name == d.name) = some d

theorem mem_listedColumns_of_primaryKey (t : Table) {k : Key} {d : ColumnDef}
    (hk : t.primaryKey = some k) (hd : d ∈ k.columns) : d ∈ t.listedColumns := by
  simp [listedColumns, hk, hd]

theorem mem_listedColumns_of_index (t : Table) {i : Index} {d : ColumnDef} (hi : i ∈ t.indices)
    (hd : d ∈ i.columns) : d ∈ t.listedColumns :=
  List.mem_append_left _ (List.mem_append_right _ (List.mem_flatMap.mpr ⟨i, hi, hd⟩))

theorem mem_listedColumns_of_unique (t : Table) {k : Key} {d : ColumnDef} (hk : k ∈ t.uniques)
    (hd : d ∈ k.columns) : d ∈ t.listedColumns :=
  List.mem_append_right _ (List.mem_flatMap.mpr ⟨k, hk, hd⟩)

instance (t : Table) : Decidable t.ListsFirst := inferInstanceAs (Decidable (∀ d ∈ _, _))

end Table

def Database.ListsFirst (db : Database) : Prop := ∀ t ∈ db.tables, t.ListsFirst

instance (db : Database) : Decidable db.ListsFirst := inferInstanceAs (Decidable (∀ t ∈ _, _))

theorem find?_name_of_find? {definitions : List ColumnDef} {name : String} {d : ColumnDef}
    (h : definitions.find? (·.name == name) = some d) :
    definitions.find? (·.name == d.name) = some d := by
  have hname : d.name = name := by simpa using List.find?_some h
  rwa [hname]

namespace TableDraft

/-- Column names are bound once each. -/
def NamesOnce (draft : TableDraft) : Prop := (draft.columns.map Column.name).Nodup

theorem NamesOnce.bind {draft : TableDraft} (h : draft.NamesOnce) {member : String} {d : ColumnDef}
    {c : Column} {next : TableDraft} (hbind : draft.bind member d = (.ok c, next)) :
    next.NamesOnce := by
  unfold TableDraft.bind at hbind
  split at hbind
  next => cases hbind
  next hcheck =>
    obtain ⟨-, rfl⟩ := Prod.mk.inj hbind
    have hnew : draft.columns.any (·.name == d.name) = false := by
      unfold checkBind at hcheck
      split at hcheck
      · cases hcheck
      · split at hcheck
        next => cases hcheck
        next hany => simpa using hany
    rw [NamesOnce, List.map_append, List.nodup_append]
    refine ⟨h, by simp, ?_⟩
    rintro name hname _ hlast rfl
    obtain rfl : name = d.name := by simpa [Column.name] using hlast
    obtain ⟨o, ho, he⟩ := List.mem_map.mp hname
    exact absurd he (by simpa using List.any_eq_false.mp hnew o ho)

theorem NamesOnce.step {draft : TableDraft} (h : draft.NamesOnce) {s : DeclareStep} {c : Column}
    {next : TableDraft} (hstep : draft.step s = (.ok c, next)) : next.NamesOnce := by
  cases s with
  | column member name t flags =>
    simp only [TableDraft.step, TableDraft.column] at hstep
    split at hstep
    next => cases hstep
    next registry _ =>
      have hregistered : NamesOnce { draft with registry } := h
      exact hregistered.bind hstep
  | bind member d => exact h.bind hstep
  | lookup member =>
    obtain ⟨-, rfl⟩ := Prod.mk.inj hstep
    exact h

end TableDraft

namespace Table

section

variable {table : String} {definitions : List ColumnDef}

theorem columns_primaryKeyOf {k : Key} (h : primaryKeyOf table definitions = some k) :
    k.columns = carrying definitions .primaryKey := by
  unfold primaryKeyOf at h
  split at h
  next => cases h
  next => rw [← Option.some.inj h]; rfl

theorem columns_indexOf {tier : Nat} {i : Index} (h : indexOf table definitions tier = some i) :
    i.columns = carrying definitions (.indexTier tier) := by
  unfold indexOf at h
  split at h
  next => cases h
  next => rw [← Option.some.inj h]; rfl

theorem columns_uniqueOf {tier : Nat} {k : Key} (h : uniqueOf table definitions tier = some k) :
    k.columns = carrying definitions (.uniqueTier tier) := by
  unfold uniqueOf at h
  split at h
  next => cases h
  next => rw [← Option.some.inj h]; rfl

end

theorem listedColumns_ofColumns_subset (id : TableId) (name : String) (columns : List Column) :
    (ofColumns id name columns).listedColumns ⊆ columns.map (·.definition) := by
  have hcarrying : ∀ flag, carrying (columns.map (·.definition)) flag ⊆
      columns.map (·.definition) := fun _ => List.filter_sublist.subset
  intro d hd
  simp only [listedColumns, ofColumns, List.mem_append, List.mem_flatMap, Option.mem_toList,
    List.mem_filterMap] at hd
  rcases hd with (⟨k, hk, hd⟩ | ⟨i, ⟨tier, -, hi⟩, hd⟩) | ⟨k, ⟨tier, -, hk⟩, hd⟩
  · exact hcarrying _ (columns_primaryKeyOf hk ▸ hd)
  · exact hcarrying _ (columns_indexOf hi ▸ hd)
  · exact hcarrying _ (columns_uniqueOf hk ▸ hd)

theorem listsFirst_ofColumns {columns : List Column} (h : (columns.map Column.name).Nodup)
    (id : TableId) (name : String) : (ofColumns id name columns).ListsFirst := by
  intro d hd
  have hnames : ((columns.map (·.definition)).map ColumnDef.name).Nodup := by
    rwa [List.map_map]
  exact (find?_eq_some_iff_of_nodup hnames).mpr
    ⟨listedColumns_ofColumns_subset id name columns hd, rfl⟩

end Table

end DeclarativeSql
