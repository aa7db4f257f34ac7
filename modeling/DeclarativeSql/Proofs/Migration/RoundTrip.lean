import DeclarativeSql.Proofs.Migration.TableChange

/-!
# Round trips

The statements of a difference lead a strict server from the current database to one with the
structure of the target.
-/
namespace DeclarativeSql

theorem Table.alterFirst_append {name : String} {f : Table → Option Table} {front back : List Table}
    {t : Table} (hfront : name ∉ front.map Table.name) (ht : t.name = name) :
    alterFirst name f (front ++ t :: back) = (f t).map fun u => front ++ u :: back := by
  induction front with
  | nil =>
    rw [List.nil_append, alterFirst, if_pos ht]
    rfl
  | cons first front ih =>
    rw [List.map_cons, List.mem_cons, not_or] at hfront
    rw [List.cons_append, alterFirst, if_neg (Ne.symm hfront.1), ih hfront.2, Option.map_map]
    rfl

namespace Statement

variable {server : Server}

theorem run_append {ss us : List Statement} {db mid last : Database}
    (hs : run server ss db = some mid) (hu : run server us mid = some last) :
    run server (ss ++ us) db = some last := by
  unfold run at hs
  rw [run, List.foldlM_append, hs]
  exact hu

theorem apply_of_alter {s : Statement} {t u : Table} (h : s.alter server t = some u)
    (db : Database) :
    s.apply server db = (Table.alterFirst s.table (s.alter server) db.tables).map fun tables =>
      { db with tables } := by
  cases s <;> first | rfl | cases h

section Frame

variable {front back : List Table} {t u : Table}

theorem apply_append {s : Statement} (hfront : s.table ∉ front.map Table.name)
    (ht : t.name = s.table) (h : s.alter server t = some u) (db : Database) :
    s.apply server { db with tables := front ++ t :: back } =
      some { db with tables := front ++ u :: back } := by
  rw [apply_of_alter h, Table.alterFirst_append hfront ht, h]
  rfl

theorem run_of_alterAll {ss : List Statement} {name : String} (hss : ∀ s ∈ ss, s.table = name)
    (hfront : name ∉ front.map Table.name) (ht : t.name = name)
    (h : alterAll server ss t = some u) (db : Database) :
    run server ss { db with tables := front ++ t :: back } =
      some { db with tables := front ++ u :: back } := by
  induction ss generalizing t with
  | nil =>
    cases h
    rfl
  | cons s ss ih =>
    rw [alterAll, List.foldlM_cons, Option.bind_eq_bind, Option.bind_eq_some_iff] at h
    obtain ⟨mid, hs, hrest⟩ := h
    have hname : s.table = name := hss s (List.mem_cons_self ..)
    rw [run, List.foldlM_cons, apply_append (hname ▸ hfront) (ht.trans hname.symm) hs]
    exact ih (fun s hs => hss s (List.mem_cons_of_mem _ hs)) ((name_of_alter hs).trans ht) hrest

end Frame

end Statement

namespace Table

/-- What creating a table makes of it. -/
def recreated (t : Table) : Table :=
  .withConstraints ⟨0⟩ t.name t.definitions t.primaryKey t.indices t.uniques

@[simp] theorem name_recreated (t : Table) : t.recreated.name = t.name := rfl

@[simp] theorem definitions_created (name : String) (ds : List ColumnDef) :
    (created name ds).definitions = ds := by
  simp [created, withConstraints, definitions, bindAll, Function.comp_def]

theorem recreated_agrees (t : Table) : t.recreated.Agrees t where
  columns := by
    rw [show t.recreated.definitions = t.definitions from definitions_created t.name t.definitions]
  primaryKey := rfl
  indices := .refl _
  uniques := .refl _

end Table

namespace Statement

variable {server : Server}

theorem run_creation {t : Table} (ht : t.columnNames.Nodup) (hown : t.ListsOwnColumns)
    {db : Database} (hnew : t.name ∉ db.tables.map Table.name) :
    run server t.creation db = some { db with tables := db.tables ++ [t.recreated] } := by
  obtain ⟨hownKey, hownIndices, hownUniques⟩ := hown
  let t₀ := Table.created t.name t.definitions
  let t₁ : Table := { t₀ with primaryKey := t.primaryKey }
  let t₂ : Table := { t₁ with indices := t.indices }
  have hnames : t₀.columnNames.Perm t.columnNames := by
    rw [Table.columnNames, Table.definitions_created]
    exact .refl _
  have h₁ : alterAll server (t.primaryKey.toList.map (.addPrimaryKey t.name)) t₀ = some t₁ := by
    have hkey : t₁.primaryKey = t.primaryKey.or t₀.primaryKey := (Option.or_none).symm
    rw [alterAll_addPrimaryKey t.name (fun _ => rfl) fun k hk =>
      Table.hasColumns_of_perm hnames (hownKey k hk), ← hkey]
  have h₂ : alterAll server (t.indices.map (.addIndex t.name)) t₁ = some t₂ :=
    alterAll_addIndices t.name fun i hi => Table.hasColumns_of_perm hnames (hownIndices i hi)
  have h₃ : alterAll server (t.uniques.map (.addUnique t.name)) t₂ = some t.recreated :=
    alterAll_addUniques t.name fun k hk => Table.hasColumns_of_perm hnames (hownUniques k hk)
  have hcreate : run server [.createTable t.name t.definitions] db =
      some { db with tables := db.tables ++ [t₀] } := by
    rw [run, List.foldlM_cons, apply, if_pos ⟨hnew, ht⟩]
    rfl
  let constraints := t.primaryKey.toList.map (Statement.addPrimaryKey t.name) ++
    t.indices.map (.addIndex t.name) ++ t.uniques.map (.addUnique t.name)
  have htable : ∀ s ∈ constraints, s.table = t.name := by
    simp only [constraints, List.mem_append, List.mem_map]
    rintro s ((⟨_, _, rfl⟩ | ⟨_, _, rfl⟩) | ⟨_, _, rfl⟩) <;> rfl
  have hconstraints : run server constraints { db with tables := db.tables ++ [t₀] } =
      some { db with tables := db.tables ++ [t.recreated] } :=
    run_of_alterAll (t := t₀) htable hnew rfl (alterAll_append (alterAll_append h₁ h₂) h₃) db
  have h := run_append hcreate hconstraints
  simpa only [Table.creation, constraints, List.append_assoc] using h

end Statement

theorem TableDelta.statements_of_isEmpty {d : TableDelta} (h : d.isEmpty = true) :
    d.statements = [] := by
  simp only [isEmpty, Bool.and_eq_true, List.isEmpty_iff, Option.isNone_iff_eq_none] at h
  obtain ⟨⟨⟨⟨⟨⟨⟨hcd, hca⟩, hkd⟩, hka⟩, hid⟩, hia⟩, hud⟩, hua⟩ := h
  simp [statements, *]

theorem TableDelta.table_of_mem_statements {d : TableDelta} {s : Statement}
    (h : s ∈ d.statements) : s.table = d.name := by
  simp only [statements, List.mem_append, List.mem_map] at h
  obtain (((((((⟨_, _, rfl⟩ | ⟨_, _, rfl⟩) | ⟨_, _, rfl⟩) | ⟨_, _, rfl⟩) | ⟨_, _, rfl⟩) |
    ⟨_, _, rfl⟩) | ⟨_, _, rfl⟩) | ⟨_, _, rfl⟩) := h <;> rfl

namespace Table

/-- The table after the statements for the targets that were carried out so far. -/
def migratedBy (targets : List Table) (t : Table) : Table :=
  match targets.find? (·.name == t.name) with
  | some target => t.migrated target
  | none => t

@[simp] theorem name_migratedBy (targets : List Table) (t : Table) :
    (t.migratedBy targets).name = t.name := by
  unfold migratedBy
  split <;> rfl

theorem migratedBy_append_of_ne {targets : List Table} {t target : Table}
    (h : target.name ≠ t.name) :
    t.migratedBy (targets ++ [target]) = t.migratedBy targets := by
  simp [migratedBy, List.find?_append, h]

theorem migratedBy_of_notMem {targets : List Table} {t : Table}
    (h : t.name ∉ targets.map Table.name) : t.migratedBy targets = t := by
  rw [migratedBy, find?_eq_none_iff_key.mpr h]

theorem migratedBy_append_of_eq {targets : List Table} {t target : Table}
    (h : t.name ∉ targets.map Table.name) (he : target.name = t.name) :
    t.migratedBy (targets ++ [target]) = t.migrated target := by
  have hnone : targets.find? (·.name == t.name) = none := find?_eq_none_iff_key.mpr h
  simp [migratedBy, List.find?_append, hnone, he]

end Table

namespace Database

/-- The tables of the current database that are not dropped. -/
def keptTables (current target : Database) : List Table :=
  current.tables.filter fun t => !(target.table? t.name).isNone

/-- The database after the statements for the targets that were carried out so far. -/
def migratedBy (current target : Database) (targets : List Table) : Database :=
  { current with
    tables := (current.keptTables target).map (Table.migratedBy targets) ++
      (tablesNotIn target current).map Table.recreated }

end Database

/-- The statements for one table of the target, if it is changed. -/
def changeStatements (current : Database) (target : Table) : List Statement :=
  (modified? current target).toList.flatMap TableDelta.statements

theorem flatMap_filterMap_modified (current : Database) (targets : List Table) :
    (targets.filterMap (modified? current)).flatMap TableDelta.statements =
      targets.flatMap (changeStatements current) := by
  induction targets with
  | nil => rfl
  | cons t rest ih =>
    rw [List.filterMap_cons, List.flatMap_cons, ← ih, changeStatements]
    cases modified? current t <;> simp

theorem changeStatements_of_table?_eq_some {current : Database} {target t : Table}
    (h : current.table? target.name = some t) :
    changeStatements current target = (diffTable t target).statements := by
  simp only [changeStatements, modified?, h]
  split
  next he => simp [TableDelta.statements_of_isEmpty he]
  next => simp

theorem Database.isNone_table?_eq_false_iff {db : Database} {name : String} :
    (db.table? name).isNone = false ↔ name ∈ db.tables.map Table.name := by
  rw [← Bool.not_eq_true, Option.isNone_iff_eq_none, table?_eq_none_iff, not_not]

section RoundTrip

variable {server : Server} {current target : Database}

theorem mem_keptTables_iff {t : Table} : t ∈ current.keptTables target ↔
    t ∈ current.tables ∧ t.name ∈ target.tables.map Table.name := by
  simp only [Database.keptTables, List.mem_filter, Bool.not_eq_true',
    Database.isNone_table?_eq_false_iff]

theorem keptTables_append_perm (hc : current.IsUnambiguous) (ht : target.IsUnambiguous) :
    ((current.keptTables target ++ tablesNotIn target current).map Table.name).Perm
      (target.tables.map Table.name) := by
  refine kept_append_added_perm hc.names ht.names
    (fun t _ h => Database.isNone_table?_eq_false_iff.mp h)
    (fun t _ h => Database.isNone_table?_eq_false_iff.mp h) fun t hm u hm' he => ?_
  rw [Database.isNone_table?_eq_false_iff.mpr (he ▸ List.mem_map_of_mem hm'),
    Database.isNone_table?_eq_false_iff.mpr (he ▸ List.mem_map_of_mem hm)]

theorem run_dropTables (hc : current.IsUnambiguous) :
    Statement.run server ((tablesNotIn current target).map fun t => .dropTable t.name) current =
      some { current with tables := current.keptTables target } := by
  rw [Database.keptTables, ← filter_notMem_names hc.names]
  refine foldlM_takeOut (fun _ : server = .strict => hc.names) _
    (fun tables => { current with tables }) ?_
  intro t _ _ tables
  rfl

theorem run_createTables (hc : current.IsUnambiguous) (ht : target.IsUnambiguous)
    (hown : target.constraintsAreLocal) :
    Statement.run server ((tablesNotIn target current).flatMap Table.creation)
        { current with tables := current.keptTables target } =
      some (current.migratedBy target []) := by
  let state (done : List Table) : Database :=
    { current with tables := current.keptTables target ++ done.map Table.recreated }
  have hstage : ((tablesNotIn target current).flatMap Table.creation).foldlM
      (fun db s => Statement.apply server s db) (state []) =
        some (state (tablesNotIn target current)) := by
    refine foldlM_flatMap_of_state state fun done t rest hd => ?_
    have hmem : t ∈ tablesNotIn target current := by simp [hd]
    have htarget : t ∈ target.tables := List.mem_of_mem_filter hmem
    have hnew : t.name ∉ (state done).tables.map Table.name := by
      have hnodup := (keptTables_append_perm hc ht).nodup_iff.mpr ht.names
      rw [hd, ← List.append_assoc] at hnodup
      simpa [state, Function.comp_def] using (notMem_map_of_nodup hnodup).1
    refine (Statement.run_creation (ht.tables t htarget).columns (hown t htarget) hnew).trans ?_
    simp [state]
  have hid : Table.migratedBy [] = id := rfl
  simpa [Statement.run, state, Database.migratedBy, hid] using hstage

theorem exists_migratedBy_append (hc : current.IsUnambiguous) (ht : target.IsUnambiguous)
    {done rest : List Table} {c t : Table} (hd : target.tables = done ++ t :: rest)
    (hcm : c ∈ current.tables) (hcn : c.name = t.name) :
    ∃ front back, t.name ∉ front.map Table.name ∧
      current.migratedBy target done = { current with tables := front ++ c :: back } ∧
      current.migratedBy target (done ++ [t]) =
        { current with tables := front ++ c.migrated t :: back } := by
  have htarget : t ∈ target.tables := by simp [hd]
  have hkept : c ∈ current.keptTables target :=
    mem_keptTables_iff.mpr ⟨hcm, hcn ▸ List.mem_map_of_mem htarget⟩
  obtain ⟨front, back, hsplit⟩ := List.append_of_mem hkept
  have hdone : c.name ∉ done.map Table.name := by
    have hnodup := ht.names
    rw [hd] at hnodup
    rw [hcn]
    exact (notMem_map_of_nodup hnodup).1
  have hnodup : ((front ++ c :: back).map Table.name).Nodup := by
    rw [← hsplit]
    exact hc.names.sublist (List.filter_sublist.map Table.name)
  obtain ⟨hfront, hback⟩ := notMem_map_of_nodup hnodup
  rw [hcn] at hfront hback
  have hother : ∀ us : List Table, t.name ∉ us.map Table.name →
      us.map (Table.migratedBy (done ++ [t])) = us.map (Table.migratedBy done) := fun us hus =>
    List.map_congr_left fun u hu => Table.migratedBy_append_of_ne fun he =>
      hus (he ▸ List.mem_map_of_mem hu)
  refine ⟨front.map (Table.migratedBy done),
    back.map (Table.migratedBy done) ++ (tablesNotIn target current).map Table.recreated,
    ?_, ?_, ?_⟩
  · simpa using hfront
  · simp [Database.migratedBy, hsplit, Table.migratedBy_of_notMem hdone]
  · simp [Database.migratedBy, hsplit, hother front hfront, hother back hback,
      Table.migratedBy_append_of_eq hdone hcn.symm]

/-- The statements for one table of the target carry out its part and nothing else. -/
theorem run_changeStatements (hc : current.IsUnambiguous) (ht : target.IsUnambiguous)
    (hnames : ∀ t ∈ current.tables, t.IsNamedFor server) (hown : target.constraintsAreLocal)
    {done rest : List Table} {t : Table} (hd : target.tables = done ++ t :: rest) :
    Statement.run server (changeStatements current t) (current.migratedBy target done) =
      some (current.migratedBy target (done ++ [t])) := by
  have htarget : t ∈ target.tables := by simp [hd]
  cases hcur : current.table? t.name with
  | none =>
    have hother : ∀ u ∈ current.keptTables target, t.name ≠ u.name := by
      intro u hu he
      rw [Database.table?_eq_none_iff, he] at hcur
      exact hcur (List.mem_map_of_mem (mem_keptTables_iff.mp hu).1)
    have hsame : current.migratedBy target (done ++ [t]) = current.migratedBy target done := by
      unfold Database.migratedBy
      rw [List.map_congr_left fun u hu => Table.migratedBy_append_of_ne (hother u hu)]
    rw [hsame, changeStatements, modified?, hcur]
    rfl
  | some c =>
    obtain ⟨hcm, hcn⟩ := hc.table?_eq_some_iff.mp hcur
    obtain ⟨front, back, hfront, hbefore, hafter⟩ := exists_migratedBy_append hc ht hd hcm hcn
    rw [hbefore, hafter, changeStatements_of_table?_eq_some hcur]
    exact Statement.run_of_alterAll (fun s hs => TableDelta.table_of_mem_statements hs) hfront hcn
      (alterAll_diffTable (hc.tables c hcm) (ht.tables t htarget) (hnames c hcm)
        (hown t htarget)) current

/-- The statements of a difference are all accepted. -/
theorem run_statements (hc : current.IsUnambiguous) (ht : target.IsUnambiguous)
    (hnames : ∀ t ∈ current.tables, t.IsNamedFor server) (hown : target.constraintsAreLocal)
    {delta : DatabaseDelta} (hdelta : diff current target = .ok delta) :
    Statement.run server delta.statements current =
      some (current.migratedBy target target.tables) := by
  obtain ⟨-, -, rfl⟩ := diff_eq_ok_iff.mp hdelta
  rw [DatabaseDelta.statements, flatMap_filterMap_modified]
  refine Statement.run_append (Statement.run_append (run_dropTables hc)
    (run_createTables hc ht hown)) ?_
  exact foldlM_flatMap_of_state (current.migratedBy target) fun done t rest hd =>
    run_changeStatements hc ht hnames hown hd

theorem names_migratedBy_perm (hc : current.IsUnambiguous) (ht : target.IsUnambiguous) :
    ((current.migratedBy target target.tables).tables.map Table.name).Perm
      (target.tables.map Table.name) := by
  have hmap : (current.migratedBy target target.tables).tables.map Table.name =
      (current.keptTables target ++ tablesNotIn target current).map Table.name := by
    simp [Database.migratedBy, Function.comp_def]
  rw [hmap]
  exact keptTables_append_perm hc ht

/-- Each table of the result was migrated to a table of the target, or created after it. -/
theorem mem_migratedBy_iff (ht : target.IsUnambiguous) {t : Table} :
    t ∈ (current.migratedBy target target.tables).tables ↔
      (∃ c ∈ current.tables, ∃ o ∈ target.tables, c.name = o.name ∧ t = c.migrated o) ∨
        ∃ o ∈ tablesNotIn target current, t = o.recreated := by
  have hmigrated : ∀ {c o : Table}, o ∈ target.tables → o.name = c.name →
      c.migratedBy target.tables = c.migrated o := by
    intro c o ho hn
    rw [Table.migratedBy, (find?_eq_some_iff_of_nodup ht.names).mpr ⟨ho, hn⟩]
  simp only [Database.migratedBy, List.mem_append, List.mem_map]
  constructor
  · rintro (⟨c, hcm, rfl⟩ | ⟨o, hom, rfl⟩)
    · obtain ⟨hcm, hcn⟩ := mem_keptTables_iff.mp hcm
      obtain ⟨o, ho, hn⟩ := List.mem_map.mp hcn
      exact .inl ⟨c, hcm, o, ho, hn.symm, hmigrated ho hn⟩
    · exact .inr ⟨o, hom, rfl⟩
  · rintro (⟨c, hcm, o, ho, hn, rfl⟩ | ⟨o, hom, rfl⟩)
    · have hkept : c ∈ current.keptTables target :=
        mem_keptTables_iff.mpr ⟨hcm, hn ▸ List.mem_map_of_mem ho⟩
      exact .inl ⟨c, hkept, hmigrated ho hn.symm⟩
    · exact .inr ⟨o, hom, rfl⟩

theorem migratedBy_agrees (hc : current.IsUnambiguous) (ht : target.IsUnambiguous)
    (hkeeps : ∀ c ∈ current.tables, ∀ t ∈ target.tables, c.name = t.name → c.KeepsUniques t) :
    (current.migratedBy target target.tables).Agrees target where
  names := names_migratedBy_perm hc ht
  tables := by
    intro t hm
    rcases (mem_migratedBy_iff ht).mp hm with ⟨c, hcm, o, ho, hn, rfl⟩ | ⟨o, hom, rfl⟩
    · refine ⟨o, ho, hn.symm, ?_⟩
      exact Table.migrated_agrees (hc.tables c hcm) (ht.tables o ho) (hkeeps c hcm o ho hn)
    · exact ⟨o, List.mem_of_mem_filter hom, rfl, o.recreated_agrees⟩

end RoundTrip

/-- The plan for a database is accepted statement by statement. It leads to the structure of the
target, from which nothing is left to do. -/
theorem plan_reaches_target {current target : Database} {delta : DatabaseDelta}
    (hdelta : diff current target = .ok delta) (htarget : target.constraintsAreLocal)
    (hnames : ∀ t ∈ current.tables,
      (t.indices.map Index.name).Nodup ∧ (t.uniques.map Key.name).Nodup) :
    ∃ result, Statement.run .strict delta.statements current = some result ∧
      result.sameStructure target = true ∧
      ∃ rest, diff result target = .ok rest ∧ rest.isEmpty = true := by
  obtain ⟨hc, ht, -⟩ := diff_eq_ok_iff.mp hdelta
  have hrun := run_statements hc ht
    (fun t hm => ⟨(hnames t hm).1, fun _ : Server.strict = .strict => (hnames t hm).2⟩)
    htarget hdelta
  have hagrees := migratedBy_agrees hc ht fun c hm t _ _ => .of_nodup (hnames c hm).2
  exact ⟨_, hrun, hagrees.sameStructure ht, hagrees.exists_diff ht⟩

namespace Numbers

def column (name : String) : ColumnDef := ⟨name, .scalar .int64, .empty⟩

def index (name column : String) : Index := ⟨name, .standard, [Numbers.column column]⟩

/-- One table with the columns `a` and `b` and the given indices. -/
def database (indices : List Index) : Database :=
  ⟨"app", [.withConstraints ⟨1⟩ "numbers" [column "a", column "b"] none indices []]⟩

theorem plan_reaches_added_index :
    ∃ delta, diff (database [index "x" "a"]) (database [index "y" "a", index "x" "b"]) = .ok delta ∧
      ∃ result, Statement.run .strict delta.statements (database [index "x" "a"]) = some result ∧
        result.sameStructure (database [index "y" "a", index "x" "b"]) = true ∧
        ∃ rest, diff result (database [index "y" "a", index "x" "b"]) = .ok rest ∧
          rest.isEmpty = true :=
  ⟨_, rfl, plan_reaches_target rfl (by unfold Database.constraintsAreLocal; decide) (by decide)⟩

end Numbers

end DeclarativeSql
