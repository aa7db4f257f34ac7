import DeclarativeSql.Proofs.Migration.IndexNames

/-!
# The order of index changes

In a plan every index is dropped and added once at most, and within a table the drops come first.
-/
namespace DeclarativeSql

namespace Statement

/-- The second statement may stand behind the first. -/
def MayPrecede (a b : Statement) : Prop :=
  (∀ table i, a = .addIndex table i → b ≠ .addIndex table i ∧ ∀ name, b ≠ .dropIndex table name) ∧
    ∀ table name, a = .dropIndex table name → b ≠ .dropIndex table name

theorem MayPrecede.of_table_ne {a b : Statement} (h : a.table ≠ b.table) : a.MayPrecede b := by
  refine ⟨?_, ?_⟩
  · rintro table i rfl
    exact ⟨by rintro rfl; exact h rfl, by rintro name rfl; exact h rfl⟩
  · rintro table name rfl rfl
    exact h rfl

def namesIndex : Statement → Bool
  | .addIndex .. | .dropIndex .. => true
  | _ => false

/-- Only statements that name an index have to keep to an order. -/
theorem pairwise_mayPrecede_iff {ss : List Statement} :
    ss.Pairwise MayPrecede ↔ (ss.filter namesIndex).Pairwise MayPrecede := by
  rw [List.pairwise_filter]
  refine ⟨List.Pairwise.imp fun h _ _ => h, List.Pairwise.imp fun {a b} h => ⟨?_, ?_⟩⟩
  · rintro table i rfl
    constructor
    · rintro rfl
      exact ((h rfl rfl).1 table i rfl).1 rfl
    · rintro name rfl
      exact ((h rfl rfl).1 table i rfl).2 name rfl
  · rintro table name rfl rfl
    exact (h rfl rfl).2 table name rfl rfl

theorem pairwise_addIndex {name : String} {is : List Index} (h : is.Nodup) :
    (is.map (addIndex name)).Pairwise MayPrecede := by
  rw [List.pairwise_map]
  refine h.imp fun {i j} hij => ⟨?_, ?_⟩
  · rintro _ _ ⟨⟩
    exact ⟨by rintro ⟨⟩; exact hij rfl, by simp⟩
  · rintro _ _ ⟨⟩

theorem pairwise_dropIndex {name : String} {is : List Index} (h : (is.map Index.name).Nodup) :
    (is.map fun i => dropIndex name i.name).Pairwise MayPrecede := by
  rw [List.nodup_iff_pairwise_ne, List.pairwise_map] at h
  rw [List.pairwise_map]
  refine h.imp fun {i j} hij => ⟨?_, ?_⟩
  · rintro _ _ ⟨⟩
  · rintro _ _ ⟨⟩ hd
    exact hij (by simpa using hd.symm)

end Statement

theorem Table.table_of_mem_creation {t : Table} {s : Statement} (h : s ∈ t.creation) :
    s.table = t.name := by
  simp only [creation, List.mem_append, List.mem_map, List.mem_singleton] at h
  rcases h with ((rfl | ⟨_, _, rfl⟩) | ⟨_, _, rfl⟩) | ⟨_, _, rfl⟩ <;> rfl

theorem Table.addIndex_mem_creation_iff {t : Table} {table : String} {i : Index} :
    .addIndex table i ∈ t.creation ↔ t.name = table ∧ i ∈ t.indices := by
  simp [creation, and_comm]

theorem Table.dropIndex_notMem_creation {t : Table} {table name : String} :
    .dropIndex table name ∉ t.creation := by
  simp [creation]

theorem Table.creation_pairwise {t : Table} (h : t.indices.Nodup) :
    t.creation.Pairwise Statement.MayPrecede := by
  have hfilter : t.creation.filter Statement.namesIndex = t.indices.map (.addIndex t.name) := by
    simp [creation, List.filter_append, List.filter_map, Function.comp_def,
      Statement.namesIndex]
  rw [Statement.pairwise_mayPrecede_iff, hfilter]
  exact Statement.pairwise_addIndex h

namespace TableDelta

variable {d : TableDelta}

theorem addIndex_mem_statements_iff {table : String} {i : Index} :
    .addIndex table i ∈ d.statements ↔ d.name = table ∧ i ∈ d.indicesToAdd := by
  simp [statements, and_comm]

theorem dropIndex_mem_statements_iff {table name : String} :
    .dropIndex table name ∈ d.statements ↔
      d.name = table ∧ name ∈ d.indicesToDrop.map Index.name := by
  simp only [statements, List.mem_append, List.mem_map, Statement.dropIndex.injEq, reduceCtorEq,
    and_false, exists_false, false_or, or_false]
  grind

theorem statements_pairwise (hdrop : (d.indicesToDrop.map Index.name).Nodup)
    (hadd : d.indicesToAdd.Nodup) : d.statements.Pairwise Statement.MayPrecede := by
  have hfilter : d.statements.filter Statement.namesIndex =
      d.indicesToDrop.map (fun i => Statement.dropIndex d.name i.name) ++
        d.indicesToAdd.map (Statement.addIndex d.name) := by
    simp [statements, List.filter_append, List.filter_map, Function.comp_def,
      Statement.namesIndex]
  rw [Statement.pairwise_mayPrecede_iff, hfilter, List.pairwise_append]
  refine ⟨Statement.pairwise_dropIndex hdrop, Statement.pairwise_addIndex hadd, ?_⟩
  simp only [List.mem_map]
  rintro _ ⟨i, -, rfl⟩ _ ⟨j, -, rfl⟩
  exact ⟨by simp, by simp⟩

end TableDelta

/-- What a list of statements does about indices, compared with two databases. -/
structure IndexPlan (current target : Database) (ss : List Statement) : Prop where
  ordered : ss.Pairwise Statement.MayPrecede
  added : ∀ {table i}, .addIndex table i ∈ ss → target.Holds table i
  dropped : ∀ {table name}, .dropIndex table name ∈ ss →
    ∃ i, current.Holds table i ∧ i.name = name
  stays_of_added : ∀ {table i}, .addIndex table i ∈ ss → .dropTable table ∉ ss
  stays_of_dropped : ∀ {table name}, .dropIndex table name ∈ ss → .dropTable table ∉ ss
  /-- An index is only added in its own place after it was dropped there. -/
  replaced : ∀ {table i}, .addIndex table i ∈ ss → current.Holds table i →
    .dropIndex table i.name ∈ ss

section Plan

variable {current target : Database}

theorem mem_changeStatements {t : Table} {s : Statement} (h : s ∈ changeStatements current t) :
    ∃ c, current.table? t.name = some c ∧ s ∈ (diffTable c t).statements := by
  cases hc : current.table? t.name with
  | none => simp [changeStatements, modified?, hc] at h
  | some c => exact ⟨c, rfl, by rwa [changeStatements_of_table?_eq_some hc] at h⟩

theorem table_of_mem_changeStatements {t : Table} {s : Statement}
    (h : s ∈ changeStatements current t) : s.table = t.name := by
  obtain ⟨c, -, hs⟩ := mem_changeStatements h
  exact TableDelta.table_of_mem_statements hs

theorem statements_eq {delta : DatabaseDelta} (h : diff current target = .ok delta) :
    delta.statements = (tablesNotIn current target).map (fun t => Statement.dropTable t.name) ++
      (tablesNotIn target current).flatMap Table.creation ++
      target.tables.flatMap (changeStatements current) := by
  obtain ⟨-, -, rfl⟩ := diff_eq_ok_iff.mp h
  rw [DatabaseDelta.statements, flatMap_filterMap_modified]

variable {delta : DatabaseDelta}

theorem mem_changeStatements_iff {t c : Table} (hc : current.table? t.name = some c)
    {s : Statement} : s ∈ changeStatements current t ↔ s ∈ (diffTable c t).statements := by
  rw [changeStatements_of_table?_eq_some hc]

theorem Index.isDropped_of_isDropped {c t : Table} {i : Index} (hi : i ∈ c.indices)
    (h : Index.isDropped t c i = true) : Index.isDropped c t i = true := by
  by_contra hkept
  rw [Bool.not_eq_true] at hkept
  obtain ⟨-, hcovers⟩ := isUnmatched_eq_false_iff.mp hkept
  have hfalse : Index.isDropped t c i = false := by
    refine isUnmatched_eq_false_iff.mpr ⟨List.mem_map_of_mem hi, ?_⟩
    rwa [coversReplaced_congr (rfl : signatureOf i.columns = signatureOf i.columns)]
  rw [h] at hfalse
  cases hfalse

theorem name_notMem_of_mem_tablesNotIn {own other : Database} {t : Table}
    (h : t ∈ tablesNotIn own other) : t.name ∉ other.tables.map Table.name := by
  rw [← Database.table?_eq_none_iff, ← Option.isNone_iff_eq_none]
  exact (List.mem_filter.mp h).2

theorem table_of_mem_creations {s : Statement}
    (hs : s ∈ (tablesNotIn target current).flatMap Table.creation) :
    s.table ∈ target.tables.map Table.name ∧ s.table ∉ current.tables.map Table.name := by
  obtain ⟨t, ht, hs⟩ := List.mem_flatMap.mp hs
  rw [Table.table_of_mem_creation hs]
  exact ⟨List.mem_map_of_mem (List.mem_of_mem_filter ht), name_notMem_of_mem_tablesNotIn ht⟩

theorem table_of_mem_changes {s : Statement}
    (hs : s ∈ target.tables.flatMap (changeStatements current)) :
    s.table ∈ target.tables.map Table.name ∧ s.table ∈ current.tables.map Table.name := by
  obtain ⟨t, ht, hs⟩ := List.mem_flatMap.mp hs
  obtain ⟨c, hcur, -⟩ := mem_changeStatements hs
  rw [table_of_mem_changeStatements hs]
  refine ⟨List.mem_map_of_mem ht, ?_⟩
  by_contra hnot
  rw [Database.table?_eq_none_iff.mpr hnot] at hcur
  cases hcur

theorem notMem_names_of_dropTable (h : diff current target = .ok delta) {table : String}
    (hs : .dropTable table ∈ delta.statements) : table ∉ target.tables.map Table.name := by
  rw [statements_eq h, List.mem_append, List.mem_append] at hs
  rcases hs with (hs | hs) | hs
  · obtain ⟨t, ht, he⟩ := List.mem_map.mp hs
    cases he
    exact name_notMem_of_mem_tablesNotIn ht
  · obtain ⟨t, -, hs⟩ := List.mem_flatMap.mp hs
    simp [Table.creation] at hs
  · obtain ⟨t, -, hs⟩ := List.mem_flatMap.mp hs
    obtain ⟨c, -, hs⟩ := mem_changeStatements hs
    simp [TableDelta.statements] at hs

/-- Names tell the columns of two tables apart that were compared. -/
theorem nodup_columnNames_of_diff (h : diff current target = .ok delta) {c t : Table}
    (hc : current.table? t.name = some c) (ht : t ∈ target.tables) :
    c.columnNames.Nodup ∧ t.columnNames.Nodup := by
  obtain ⟨hcurrent, htarget, -⟩ := diff_eq_ok_iff.mp h
  have hcm := (hcurrent.table?_eq_some_iff.mp hc).1
  exact ⟨(hcurrent.tables c hcm).columns, (htarget.tables t ht).columns⟩

/-- An index is added with its new table, or to a table it was not in before. -/
theorem addIndex_mem_statements (h : diff current target = .ok delta) {table : String} {i : Index}
    (hs : .addIndex table i ∈ delta.statements) : ∃ t ∈ target.tables, t.name = table ∧
      (current.table? table = none ∧ i ∈ t.indices ∨
        ∃ c, current.table? table = some c ∧ i ∈ indicesNotIn t c) := by
  rw [statements_eq h, List.mem_append, List.mem_append] at hs
  rcases hs with (hs | hs) | hs
  · simp at hs
  · obtain ⟨t, ht, hs⟩ := List.mem_flatMap.mp hs
    obtain ⟨rfl, hi⟩ := Table.addIndex_mem_creation_iff.mp hs
    obtain ⟨ht, hnone⟩ := List.mem_filter.mp ht
    exact ⟨t, ht, rfl, .inl ⟨Option.isNone_iff_eq_none.mp hnone, hi⟩⟩
  · obtain ⟨t, ht, hs⟩ := List.mem_flatMap.mp hs
    obtain ⟨c, hc, hs⟩ := mem_changeStatements hs
    obtain ⟨hcn, htn⟩ := nodup_columnNames_of_diff h hc ht
    rw [diffTable_eq hcn htn] at hs
    obtain ⟨rfl, hi⟩ := TableDelta.addIndex_mem_statements_iff.mp hs
    exact ⟨t, ht, rfl, .inr ⟨c, hc, hi⟩⟩

theorem dropIndex_mem_statements_iff (h : diff current target = .ok delta) {table name : String} :
    .dropIndex table name ∈ delta.statements ↔ ∃ t ∈ target.tables, t.name = table ∧
      ∃ c, current.table? table = some c ∧ name ∈ (indicesNotIn c t).map Index.name := by
  rw [statements_eq h, List.mem_append, List.mem_append]
  constructor
  · rintro ((hs | hs) | hs)
    · simp at hs
    · obtain ⟨t, -, hs⟩ := List.mem_flatMap.mp hs
      exact absurd hs Table.dropIndex_notMem_creation
    · obtain ⟨t, ht, hs⟩ := List.mem_flatMap.mp hs
      obtain ⟨c, hc, hs⟩ := mem_changeStatements hs
      obtain ⟨hcn, htn⟩ := nodup_columnNames_of_diff h hc ht
      rw [diffTable_eq hcn htn] at hs
      obtain ⟨rfl, hi⟩ := TableDelta.dropIndex_mem_statements_iff.mp hs
      exact ⟨t, ht, rfl, c, hc, hi⟩
  · rintro ⟨t, ht, rfl, c, hc, hi⟩
    obtain ⟨hcn, htn⟩ := nodup_columnNames_of_diff h hc ht
    refine .inr (List.mem_flatMap.mpr ⟨t, ht, (mem_changeStatements_iff hc).mpr ?_⟩)
    rw [diffTable_eq hcn htn]
    exact TableDelta.dropIndex_mem_statements_iff.mpr ⟨rfl, hi⟩

/-- Statements about different tables do not matter to one another, so it is enough to look at how
one table is created and at how one is changed. -/
theorem statements_pairwise_of_table {R : Statement → Statement → Prop}
    (hR : ∀ {a b : Statement}, a.table ≠ b.table → R a b) (h : diff current target = .ok delta)
    (hcreation : ∀ t ∈ target.tables, t.creation.Pairwise R)
    (hchange : ∀ c ∈ current.tables, ∀ t ∈ target.tables, c.name = t.name →
      (diffTable c t).statements.Pairwise R) : delta.statements.Pairwise R := by
  obtain ⟨hc, ht, -⟩ := diff_eq_ok_iff.mp h
  have hne : ∀ {ts : List Table}, (ts.map Table.name).Nodup →
      ts.Pairwise fun t u => t.name ≠ u.name := by
    intro ts hn
    rwa [List.nodup_iff_pairwise_ne, List.pairwise_map] at hn
  have hdropped : (tablesNotIn current target).Pairwise fun t u => t.name ≠ u.name :=
    hne (hc.names.sublist (List.filter_sublist.map _))
  have hadded : (tablesNotIn target current).Pairwise fun t u => t.name ≠ u.name :=
    hne (ht.names.sublist (List.filter_sublist.map _))
  rw [statements_eq h, List.append_assoc, List.pairwise_append, List.pairwise_append,
    List.pairwise_map, List.pairwise_flatMap, List.pairwise_flatMap]
  refine ⟨hdropped.imp hR, ⟨⟨?_, ?_⟩, ⟨?_, ?_⟩, ?_⟩, ?_⟩
  · intro t hm
    exact hcreation t (List.mem_of_mem_filter hm)
  · refine hadded.imp fun hn a ha b hb => hR ?_
    rwa [Table.table_of_mem_creation ha, Table.table_of_mem_creation hb]
  · intro t hm
    cases hcur : current.table? t.name with
    | none => simp [changeStatements, modified?, hcur]
    | some c =>
      rw [changeStatements_of_table?_eq_some hcur]
      obtain ⟨hcm, hn⟩ := hc.table?_eq_some_iff.mp hcur
      exact hchange c hcm t hm hn
  · refine (hne ht.names).imp fun hn a ha b hb => hR ?_
    rwa [table_of_mem_changeStatements ha, table_of_mem_changeStatements hb]
  · -- a table that is created was not there, and one that is changed was
    intro a ha b hb
    apply hR
    intro he
    exact (table_of_mem_creations ha).2 (he ▸ (table_of_mem_changes hb).2)
  · -- a table that is dropped is none of the target, and all others are
    intro a ha b hb
    have hstays : b.table ∈ target.tables.map Table.name := by
      rcases List.mem_append.mp hb with hb | hb
      · exact (table_of_mem_creations hb).1
      · exact (table_of_mem_changes hb).1
    obtain ⟨c, hcm, rfl⟩ := List.mem_map.mp ha
    apply hR
    intro he
    rw [← he] at hstays
    exact name_notMem_of_mem_tablesNotIn hcm hstays

theorem statements_pairwise (h : diff current target = .ok delta)
    (hnames : ∀ t ∈ current.tables, (t.indices.map Index.name).Nodup) :
    delta.statements.Pairwise Statement.MayPrecede := by
  obtain ⟨hc, ht, -⟩ := diff_eq_ok_iff.mp h
  refine statements_pairwise_of_table .of_table_ne h ?_ ?_
  · intro t hm
    exact Table.creation_pairwise (ht.tables t hm).indices.of_map
  · intro c hcm t hm _
    exact TableDelta.statements_pairwise
      ((hnames c hcm).sublist (List.filter_sublist.map _))
      ((ht.tables t hm).indices.of_map.sublist List.filter_sublist)

theorem indexPlan_of_diff (h : diff current target = .ok delta)
    (hnames : ∀ t ∈ current.tables, (t.indices.map Index.name).Nodup) :
    IndexPlan current target delta.statements := by
  obtain ⟨hc, ht, -⟩ := diff_eq_ok_iff.mp h
  exact {
    ordered := statements_pairwise h hnames
    added := by
      intro table i hs
      obtain ⟨t, ht, hn, ⟨-, hi⟩ | ⟨c, -, hi⟩⟩ := addIndex_mem_statements h hs
      · exact ⟨t, ht, hn, hi⟩
      · exact ⟨t, ht, hn, List.mem_of_mem_filter hi⟩
    dropped := by
      intro table name hs
      obtain ⟨t, -, -, c, hcur, hi⟩ := (dropIndex_mem_statements_iff h).mp hs
      obtain ⟨i, him, rfl⟩ := List.mem_map.mp hi
      obtain ⟨hcm, hcn⟩ := hc.table?_eq_some_iff.mp hcur
      exact ⟨i, ⟨c, hcm, hcn, List.mem_of_mem_filter him⟩, rfl⟩
    stays_of_added := by
      intro table i hs hd
      obtain ⟨t, ht, rfl, -⟩ := addIndex_mem_statements h hs
      exact notMem_names_of_dropTable h hd (List.mem_map_of_mem ht)
    stays_of_dropped := by
      intro table name hs hd
      obtain ⟨t, ht, rfl, -⟩ := (dropIndex_mem_statements_iff h).mp hs
      exact notMem_names_of_dropTable h hd (List.mem_map_of_mem ht)
    replaced := by
      rintro _ i hs ⟨c, hcm, rfl, hi⟩
      have hcur := hc.table?_eq_some_iff.mpr ⟨hcm, rfl⟩
      obtain ⟨t, htm, hn, ⟨hnone, -⟩ | ⟨c', hc', hadd⟩⟩ := addIndex_mem_statements h hs
      · rw [Database.table?_eq_none_iff] at hnone
        exact absurd (List.mem_map_of_mem hcm) hnone
      · rw [hcur, Option.some.injEq] at hc'
        subst hc'
        have hdropped := Index.isDropped_of_isDropped hi (List.mem_filter.mp hadd).2
        exact (dropIndex_mem_statements_iff h).mpr ⟨t, htm, hn, c, hcur,
          List.mem_map_of_mem (List.mem_filter.mpr ⟨hi, hdropped⟩)⟩ }

end Plan

end DeclarativeSql
