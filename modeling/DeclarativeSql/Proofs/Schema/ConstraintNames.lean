import DeclarativeSql.Proofs.Migration.IndexNames
import DeclarativeSql.Proofs.Schema.LocalConstraints

/-!
# Names of constraints

The name of a constraint is put together with `_` from the names of its table and its columns, which
may have a `_` of their own. Two constraints of a kind have one name exactly if they spell the same
words, so the generated names tell constraints apart exactly where words do.
-/
namespace DeclarativeSql

/-- A name cut at each `_`. -/
def words (name : String) : List (List Char) := name.toList.splitOn '_'

theorem words_append (front back : String) : words (front ++ "_" ++ back) =
    words front ++ words back := by
  simp [words, List.splitOn_append_cons_self]

theorem words_inj {x y : String} : words x = words y ↔ x = y := by
  refine ⟨fun h => String.toList_injective ?_, congrArg words⟩
  have hjoined := congrArg (List.intercalate ['_']) h
  rwa [words, words, List.intercalate_splitOn, List.intercalate_splitOn] at hjoined

theorem words_of_notMem {name : String} (h : '_' ∉ name.toList) : words name = [name.toList] := by
  have hone : (List.intercalate ['_'] [name.toList]).splitOn '_' = [name.toList] :=
    List.splitOn_intercalate '_' (by simpa using h) (by simp)
  rwa [List.intercalate_singleton] at hone

theorem words_intercalate {names : List String} (h : names ≠ []) :
    words (String.intercalate "_" names) = names.flatMap words := by
  induction names with
  | nil => exact absurd rfl h
  | cons name rest ih =>
    cases rest with
    | nil => simp
    | cons next rest =>
      rw [String.intercalate_cons_cons, words_append, ih (List.cons_ne_nil _ _)]
      rfl

/-- The words of a constraint over columns of a table. -/
def constraintWords (table : String) (columns : List ColumnDef) : List (List Char) :=
  words table ++ columns.flatMap fun d => words d.name

theorem words_constraintName (kind table : String) {columns : List ColumnDef} (h : columns ≠ []) :
    words (constraintName kind table columns) = words kind ++ constraintWords table columns := by
  have hnames : columns.map ColumnDef.name ≠ [] := by simpa using h
  rw [constraintName, words_append, words_append, words_intercalate hnames, List.flatMap_map,
    List.append_assoc, constraintWords]

theorem constraintName_eq_iff {kind table other : String} {columns others : List ColumnDef}
    (h : columns ≠ []) (ho : others ≠ []) :
    constraintName kind table columns = constraintName kind other others ↔
      constraintWords table columns = constraintWords other others := by
  rw [← words_inj, words_constraintName kind table h, words_constraintName kind other ho,
    List.append_cancel_left_eq]

/-- Where no name has a `_`, the words tell the table and the names of the columns. -/
theorem names_eq_of_constraintWords {table other : String} {columns others : List ColumnDef}
    (htable : '_' ∉ table.toList) (hother : '_' ∉ other.toList)
    (hcolumns : ∀ d ∈ columns, '_' ∉ d.name.toList) (hothers : ∀ d ∈ others, '_' ∉ d.name.toList)
    (h : constraintWords table columns = constraintWords other others) :
    table = other ∧ columns.map ColumnDef.name = others.map ColumnDef.name := by
  have hwords : ∀ {ds : List ColumnDef}, (∀ d ∈ ds, '_' ∉ d.name.toList) →
      ds.flatMap (fun d => words d.name) = (ds.map ColumnDef.name).map String.toList := by
    intro ds hds
    rw [List.flatMap_congr fun d hd => words_of_notMem (hds d hd), List.map_map]
    exact List.flatMap_pure_eq_map _ ds
  rw [constraintWords, constraintWords, words_of_notMem htable, words_of_notMem hother,
    hwords hcolumns, hwords hothers, List.cons_append, List.cons_append, List.cons.injEq] at h
  exact ⟨String.toList_injective h.1,
    List.map_injective_iff.mpr (fun _ _ => String.toList_injective) h.2⟩

namespace Table

variable {id : TableId} {name : String} {columns : List Column}

theorem index_of_mem_ofColumns {i : Index} (h : i ∈ (ofColumns id name columns).indices) :
    i.columns ≠ [] ∧ i = .forTable name
      (if i.columns.any fun d => d.flags.contains .gin then .gin else .standard) i.columns := by
  obtain ⟨tier, -, hi⟩ := List.mem_filterMap.mp h
  unfold indexOf at hi
  split at hi
  · cases hi
  next hcarried =>
    obtain rfl := Option.some.inj hi
    exact ⟨hcarried, rfl⟩

theorem unique_of_mem_ofColumns {k : Key} (h : k ∈ (ofColumns id name columns).uniques) :
    k.columns ≠ [] ∧ k = .unique name k.columns := by
  obtain ⟨tier, -, hk⟩ := List.mem_filterMap.mp h
  unfold uniqueOf at hk
  split at hk
  · cases hk
  next hcarried =>
    obtain rfl := Option.some.inj hk
    exact ⟨hcarried, rfl⟩

theorem ListsFirst.columns_eq {t : Table} (h : t.ListsFirst) {xs ys : List ColumnDef}
    (hxs : ∀ d ∈ xs, d ∈ t.listedColumns) (hys : ∀ d ∈ ys, d ∈ t.listedColumns)
    (hnames : xs.map ColumnDef.name = ys.map ColumnDef.name) : xs = ys := by
  have hfound : ∀ {ds : List ColumnDef}, (∀ d ∈ ds, d ∈ t.listedColumns) →
      ds.map some = (ds.map ColumnDef.name).map fun n => t.definitions.find? (·.name == n) := by
    intro ds hds
    rw [List.map_map]
    exact List.map_congr_left fun d hd => (h d (hds d hd)).symm
  have hsome : xs.map some = ys.map some := by rw [hfound hxs, hfound hys, hnames]
  exact List.map_injective_iff.mpr (fun _ _ => Option.some.inj) hsome

end Table

namespace Database

/-- No index of the database has the name of another one, and no unique that of another one of its
table. -/
structure NamesIdentify (db : Database) : Prop where
  indices : db.indexNames.Nodup
  uniques : ∀ t ∈ db.tables, (t.uniques.map Key.name).Nodup

/-- Constraints that spell the same words are one. -/
structure SpellsApart (db : Database) : Prop where
  indices : ∀ table i other j, db.Holds table i → db.Holds other j →
    constraintWords table i.columns = constraintWords other j.columns → table = other ∧ i = j
  uniques : ∀ t ∈ db.tables, ∀ k ∈ t.uniques, ∀ l ∈ t.uniques,
    constraintWords t.name k.columns = constraintWords t.name l.columns → k = l

/-- No name of a table or a column has a `_`. -/
def NamesSingleWords (db : Database) : Prop :=
  ∀ t ∈ db.tables, '_' ∉ t.name.toList ∧ ∀ d ∈ t.definitions, '_' ∉ d.name.toList

/-- No index is listed twice, with the names of tables told apart. -/
theorem IsUnambiguous.nodup_placed {db : Database} (h : db.IsUnambiguous) :
    (db.tables.flatMap fun t => t.indices.map fun i => (t.name, i)).Nodup := by
  rw [List.nodup_flatMap]
  refine ⟨fun t ht => ?_, ?_⟩
  · exact ((h.tables t ht).indices.of_map _).map fun i j hij => (Prod.mk.inj hij).2
  · refine (List.pairwise_map.mp h.names).imp fun hne => ?_
    refine List.disjoint_left.mpr fun p hp hq => ?_
    obtain ⟨i, -, rfl⟩ := List.mem_map.mp hp
    obtain ⟨j, -, hj⟩ := List.mem_map.mp hq
    exact hne (Prod.mk.inj hj).1.symm

/-- Names of indices are distinct exactly if each leads to one index of one table. -/
theorem IsUnambiguous.nodup_indexNames_iff {db : Database} (h : db.IsUnambiguous) :
    db.indexNames.Nodup ↔ ∀ table i other j, db.Holds table i → db.Holds other j →
      i.name = j.name → table = other ∧ i = j := by
  constructor
  · intro hnames table i other j hi hj hn
    exact eq_of_name_eq hnames hi hj hn
  · intro hone
    have hholds : ∀ p ∈ db.tables.flatMap fun t => t.indices.map fun i => (t.name, i),
        db.Holds p.1 p.2 := by
      intro p hp
      obtain ⟨t, ht, hp⟩ := List.mem_flatMap.mp hp
      obtain ⟨i, hi, rfl⟩ := List.mem_map.mp hp
      exact ⟨t, ht, rfl, hi⟩
    have hmap := h.nodup_placed.map_on (f := fun p => p.2.name) fun p hp q hq hpq =>
      Prod.ext_iff.mpr (hone _ _ _ _ (hholds p hp) (hholds q hq) hpq)
    simpa [indexNames, List.map_flatMap, Function.comp_def] using hmap

end Database

namespace SchemaBuilder

variable {b : SchemaBuilder}

theorem IsBuilt.name_of_holds (h : b.IsBuilt) {table : String} {i : Index}
    (hi : b.build.Holds table i) :
    i.columns ≠ [] ∧ i.name = constraintName "idx" table i.columns := by
  obtain ⟨t, ht, rfl, hi⟩ := hi
  obtain ⟨id, name, columns, rfl, -⟩ := h.ofColumns t ht
  obtain ⟨hne, hname⟩ := Table.index_of_mem_ofColumns hi
  exact ⟨hne, congrArg Index.name hname⟩

theorem IsBuilt.name_of_mem_uniques (h : b.IsBuilt) {t : Table} (ht : t ∈ b.tables) {k : Key}
    (hk : k ∈ t.uniques) : k.columns ≠ [] ∧ k.name = constraintName "uniq" t.name k.columns := by
  obtain ⟨id, name, columns, rfl, -⟩ := h.ofColumns t ht
  obtain ⟨hne, hname⟩ := Table.unique_of_mem_ofColumns hk
  exact ⟨hne, congrArg Key.name hname⟩

/-- Single words can not be cut in two ways. -/
theorem IsBuilt.spellsApart_of_singleWords (h : b.IsBuilt) (hw : b.build.NamesSingleWords) :
    b.build.SpellsApart where
  indices := by
    rintro _ i _ j ⟨t, ht, rfl, hi⟩ ⟨u, hu, rfl, hj⟩ hspelled
    have hwords : ∀ v ∈ b.tables, ∀ i ∈ v.indices, ∀ d ∈ i.columns, '_' ∉ d.name.toList := by
      intro v hv i hi d hd
      obtain ⟨-, hlocal, -⟩ := h.isDeclared.constraintsAreLocal v hv
      exact (hw v hv).2 d (hlocal i hi d hd)
    obtain ⟨hname, hcolumns⟩ := names_eq_of_constraintWords (hw t ht).1 (hw u hu).1
      (hwords t ht i hi) (hwords u hu j hj) hspelled
    obtain rfl := List.inj_on_of_nodup_map h.names ht hu hname
    refine ⟨rfl, ?_⟩
    obtain ⟨id, name, columns, rfl, hnames⟩ := h.ofColumns t ht
    have heq := (Table.listsFirst_ofColumns hnames id name).columns_eq
      (fun d hd => Table.mem_listedColumns_of_index _ hi hd)
      (fun d hd => Table.mem_listedColumns_of_index _ hj hd) hcolumns
    rw [(Table.index_of_mem_ofColumns hi).2, (Table.index_of_mem_ofColumns hj).2, heq]
  uniques := by
    intro t ht k hk l hl hspelled
    have hwords : ∀ k ∈ t.uniques, ∀ d ∈ k.columns, '_' ∉ d.name.toList := by
      intro k hk d hd
      obtain ⟨-, -, hlocal⟩ := h.isDeclared.constraintsAreLocal t ht
      exact (hw t ht).2 d (hlocal k hk d hd)
    obtain ⟨-, hcolumns⟩ := names_eq_of_constraintWords (hw t ht).1 (hw t ht).1
      (hwords k hk) (hwords l hl) hspelled
    obtain ⟨id, name, columns, rfl, hnames⟩ := h.ofColumns t ht
    have heq := (Table.listsFirst_ofColumns hnames id name).columns_eq
      (fun d hd => Table.mem_listedColumns_of_unique _ hk hd)
      (fun d hd => Table.mem_listedColumns_of_unique _ hl hd) hcolumns
    rw [(Table.unique_of_mem_ofColumns hk).2, (Table.unique_of_mem_ofColumns hl).2, heq]

/-- The names of a built database identify exactly if its constraints spell different words. -/
theorem IsBuilt.namesIdentify_iff_spellsApart (h : b.IsBuilt) (hu : b.build.IsUnambiguous) :
    b.build.NamesIdentify ↔ b.build.SpellsApart := by
  have hindex : ∀ {table i other j}, b.build.Holds table i → b.build.Holds other j →
      (i.name = j.name ↔
        constraintWords table i.columns = constraintWords other j.columns) := by
    intro table i other j hi hj
    obtain ⟨hne, hname⟩ := h.name_of_holds hi
    obtain ⟨hneo, hnameo⟩ := h.name_of_holds hj
    rw [hname, hnameo, constraintName_eq_iff hne hneo]
  have hunique : ∀ t ∈ b.tables, ∀ k ∈ t.uniques, ∀ l ∈ t.uniques, (k.name = l.name ↔
      constraintWords t.name k.columns = constraintWords t.name l.columns) := by
    intro t ht k hk l hl
    obtain ⟨hne, hname⟩ := h.name_of_mem_uniques ht hk
    obtain ⟨hneo, hnameo⟩ := h.name_of_mem_uniques ht hl
    rw [hname, hnameo, constraintName_eq_iff hne hneo]
  constructor
  · intro hn
    refine ⟨fun table i other j hi hj hspelled => ?_, fun t ht k hk l hl hspelled => ?_⟩
    · exact Database.eq_of_name_eq hn.indices hi hj ((hindex hi hj).mpr hspelled)
    · exact List.inj_on_of_nodup_map (hn.uniques t ht) hk hl
        ((hunique t ht k hk l hl).mpr hspelled)
  · intro hs
    refine ⟨hu.nodup_indexNames_iff.mpr fun table i other j hi hj hname => ?_, fun t ht => ?_⟩
    · exact hs.indices table i other j hi hj ((hindex hi hj).mp hname)
    · exact ((hu.tables t ht).uniques.of_map _).map_on fun k hk l hl hname =>
        hs.uniques t ht k hk l hl ((hunique t ht k hk l hl).mp hname)

/-- Generated names of a built database that some difference takes identify their constraints
exactly if no two constraints spell the same words, and so at least where each name is one word. -/
theorem IsBuilt.names_identify_iff (h : b.IsBuilt) {other : Database} {delta : DatabaseDelta}
    (hdiff : diff other b.build = .ok delta ∨ diff b.build other = .ok delta) :
    (b.build.NamesIdentify ↔ b.build.SpellsApart) ∧
      (b.build.NamesSingleWords → b.build.NamesIdentify) := by
  have hu : b.build.IsUnambiguous := by
    rcases hdiff with hdiff | hdiff
    · exact (diff_eq_ok_iff.mp hdiff).2.1
    · exact (diff_eq_ok_iff.mp hdiff).1
  have hiff := h.namesIdentify_iff_spellsApart hu
  exact ⟨hiff, fun hw => hiff.mpr (h.spellsApart_of_singleWords hw)⟩

/-- The tables of names and columns, each column with its flags. -/
def ofTables (tables : List (String × List (String × ColumnFlags))) :
    Except ConstructionError SchemaBuilder :=
  tables.foldlM (fun b t => b.declare t.1 (t.2.map fun c => .column c.1 c.1 (.scalar .int64) c.2))
    (new "app" ⟨0⟩)

theorem isBuilt_of_ofTables {tables : List (String × List (String × ColumnFlags))}
    (h : ofTables tables = .ok b) : b.IsBuilt :=
  foldlM_keeps (fun _ hs _ _ _ hdeclare => IsBuilt.declared hs hdeclare) (.new _ _) h

/-- Two indices over different columns, each in a table of its own. -/
theorem separate_names_identify : ∃ b,
    ofTables [("user", [("id", .indexTier 1)]), ("post", [("id", .indexTier 1)])] = .ok b ∧
      b.build.NamesIdentify := by
  obtain ⟨b, hb⟩ : ∃ b, ofTables
      [("user", [("id", .indexTier 1)]), ("post", [("id", .indexTier 1)])] = .ok b := ⟨_, rfl⟩
  obtain ⟨delta, hdelta⟩ : ∃ delta, diff ⟨"app", []⟩ b.build = .ok delta := by
    cases hb
    exact ⟨_, rfl⟩
  refine ⟨b, hb, ((isBuilt_of_ofTables hb).names_identify_iff (.inl hdelta)).2 ?_⟩
  cases hb
  unfold Database.NamesSingleWords
  decide

/-- Two indices of different tables share a name here, and so do two uniques of one table. The plan
that makes the tables from nothing then leaves out an index where all tables share names. -/
theorem clashing_names_accepted : ∃ b : SchemaBuilder, b.IsBuilt ∧
    ∃ delta, diff ⟨"app", []⟩ b.build = .ok delta ∧
      ¬ b.build.indexNames.Nodup ∧
      (∃ t ∈ b.build.tables, ¬ (t.uniques.map Key.name).Nodup) ∧
      ∃ result, Statement.runShared delta.statements ⟨"app", []⟩ = some result ∧
        result.sameStructure b.build = false := by
  obtain ⟨b, hb⟩ : ∃ b, ofTables
      [("a", [("b_c", .indexTier 1), ("d", .uniqueTier 1), ("e", .uniqueTier 1),
        ("d_e", .uniqueTier 2)]), ("a_b", [("c", .indexTier 1)])] = .ok b := ⟨_, rfl⟩
  refine ⟨b, isBuilt_of_ofTables hb, ?_⟩
  cases hb
  exact ⟨_, rfl, by decide, ⟨_, List.mem_cons_self, by decide⟩, _, rfl, by decide⟩

end SchemaBuilder

end DeclarativeSql
