import DeclarativeSql.Proofs.Catalog.Assembly
import DeclarativeSql.Proofs.Migration.Structure
import DeclarativeSql.Proofs.Schema.Listing

/-!
# Reading a stored database

Rows that describe a database are put together to a database of the same structure, with the same
names and methods of constraints.
-/
namespace DeclarativeSql

/-- Names tell the columns and constraints of the table apart, and no column has two defaults. -/
structure Table.IsStorable (t : Table) : Prop where
  columns : t.columns ≠ []
  columnNames : t.columnNames.Nodup
  listed : ∀ d ∈ t.listedColumns, d ∈ t.definitions
  keyColumns : ∀ k ∈ t.primaryKey.toList ++ t.uniques, k.columns ≠ []
  indexColumns : ∀ i ∈ t.indices, i.columns ≠ []
  keyNames : ((t.primaryKey.toList ++ t.uniques).map Key.name).Nodup
  indexNames : (t.indices.map Index.name).Nodup
  defaults : ∀ d ∈ t.definitions, ¬(d.isSerial = true ∧ d.isDefaultNow = true)

structure Database.IsStorable (db : Database) : Prop where
  names : (db.tables.map Table.name).Nodup
  tables : ∀ t ∈ db.tables, t.IsStorable

def Key.stored (k : Key) : Key := ⟨k.name, k.columns.map ColumnDef.stored⟩

def Index.stored (i : Index) : Index := ⟨i.name, i.method, i.columns.map ColumnDef.stored⟩

/-- The name, and what the key is matched by. -/
def Key.label (k : Key) : String × Signature := (k.name, k.signature)

/-- The name, and what the index is matched by, the method included. -/
def Index.label (i : Index) : String × Signature × IndexMethod := (i.name, i.signature)

theorem ColumnDef.shape_stored (d : ColumnDef) : d.stored.shape = d.shape := by
  simp [shape, stored, ColumnFlags.structural_structural]

theorem signatureOf_stored (columns : List ColumnDef) :
    signatureOf (columns.map ColumnDef.stored) = signatureOf columns := by
  rw [signatureOf, List.map_map]
  rfl

theorem Key.label_stored (k : Key) : k.stored.label = k.label :=
  Prod.ext rfl (signatureOf_stored k.columns)

theorem Index.label_stored (i : Index) : i.stored.label = i.label :=
  Prod.ext rfl (Prod.ext (signatureOf_stored i.columns) rfl)

namespace Postgres

def columnsOf (t : Table) : List (String × ColumnDef) := t.definitions.map fun d => (t.name, d)

def keysOf (t : Table) : List TableConstraint :=
  t.primaryKey.toList.map (fun k => ⟨.primaryKey, t.name, k.name, k.columns⟩) ++
    t.uniques.map fun k => ⟨.unique, t.name, k.name, k.columns⟩

def indicesOf (t : Table) : List TableConstraint :=
  t.indices.map fun i => ⟨.index i.method, t.name, i.name, i.columns⟩

/-- The rows describe the database. Columns may come in any order and so may constraints, but the
rows of one constraint stand together, in the order of its columns. -/
structure Describes (rows : CatalogRows) (db : Database) : Prop where
  columns : ∃ cs, cs.Perm (db.tables.flatMap columnsOf) ∧ List.Forall₂ ColumnRow cs rows.columns
  constraints : ∃ cs : List TableConstraint, cs.Perm (db.tables.flatMap keysOf) ∧
    List.Forall₂ KeyRow (cs.flatMap (·.rows.members)) rows.constraints
  indexes : ∃ cs : List TableConstraint, cs.Perm (db.tables.flatMap indicesOf) ∧
    List.Forall₂ IndexRow (cs.flatMap (·.rows.members)) rows.indexes

/-- One way to describe a database, in the order of its tables. -/
def rowsOf (db : Database) : CatalogRows where
  columns := (db.tables.flatMap columnsOf).map columnRow
  constraints := ((db.tables.flatMap keysOf).flatMap (·.rows.members)).map keyRow
  indexes := ((db.tables.flatMap indicesOf).flatMap (·.rows.members)).map indexRow

theorem describes_rowsOf (db : Database) : Describes (rowsOf db) db := by
  refine ⟨⟨_, .refl _, ?_⟩, ⟨_, .refl _, ?_⟩, ⟨_, .refl _, ?_⟩⟩ <;>
    rw [rowsOf, List.forall₂_map_right_iff, List.forall₂_same]
  · exact fun c _ => columnRow_columnRow c
  · intro m hm
    obtain ⟨c, hc, hm⟩ := List.mem_flatMap.mp hm
    obtain ⟨t, _, hc⟩ := List.mem_flatMap.mp hc
    obtain ⟨column, _, rfl⟩ := List.mem_map.mp hm
    rcases List.mem_append.mp hc with hc | hc
    · obtain ⟨k, _, rfl⟩ := List.mem_map.mp hc
      exact .primaryKey t.name k.name column
    · obtain ⟨k, _, rfl⟩ := List.mem_map.mp hc
      exact .unique t.name k.name column
  · intro m hm
    obtain ⟨c, hc, hm⟩ := List.mem_flatMap.mp hm
    obtain ⟨t, _, hc⟩ := List.mem_flatMap.mp hc
    obtain ⟨column, _, rfl⟩ := List.mem_map.mp hm
    obtain ⟨⟨name, method, columns⟩, _, rfl⟩ := List.mem_map.mp hc
    cases method with
    | standard => exact .standard t.name name column "btree" (by decide)
    | gin => exact .gin t.name name column

/-- Of what belongs to all elements, the key picks what belongs to one of them. -/
theorem filter_flatMap_of_key {α β κ : Type} [DecidableEq κ] {name : α → κ} {key : β → κ}
    {f : α → List β} {xs : List α} (hkey : ∀ x ∈ xs, ∀ y ∈ f x, key y = name x)
    (hnodup : (xs.map name).Nodup) {x : α} (hx : x ∈ xs) :
    (xs.flatMap f).filter (fun y => decide (key y = name x)) = f x := by
  induction xs with
  | nil => cases hx
  | cons y ys ih =>
    rw [List.map_cons, List.nodup_cons] at hnodup
    rw [List.flatMap_cons, List.filter_append]
    rcases List.mem_cons.mp hx with rfl | hx
    · have hown : (f x).filter (fun y => decide (key y = name x)) = f x :=
        List.filter_eq_self.mpr fun z hz => decide_eq_true (hkey x (by simp) z hz)
      have hother : (ys.flatMap f).filter (fun y => decide (key y = name x)) = [] := by
        rw [List.filter_eq_nil_iff]
        intro z hz
        obtain ⟨y, hy, hz⟩ := List.mem_flatMap.mp hz
        rw [hkey y (by simp [hy]) z hz, decide_eq_true_eq]
        exact fun he => hnodup.1 (he ▸ List.mem_map_of_mem hy)
      rw [hown, hother, List.append_nil]
    · have hfirst : (f y).filter (fun z => decide (key z = name x)) = [] := by
        rw [List.filter_eq_nil_iff]
        intro z hz
        rw [hkey y (by simp) z hz, decide_eq_true_eq]
        exact fun he => hnodup.1 (he ▸ List.mem_map_of_mem hx)
      rw [hfirst, List.nil_append, ih (fun z hz => hkey z (by simp [hz])) hnodup.2 hx]

theorem mapM_eq_ok_of_forall₂ {ε α β γ : Type} {R : α → β → Prop} {f : β → Except ε γ} {g : α → γ}
    {xs : List α} {ys : List β} (h : List.Forall₂ R xs ys)
    (hf : ∀ x ∈ xs, ∀ y, R x y → f y = .ok (g x)) : ys.mapM f = .ok (xs.map g) := by
  induction h with
  | nil => rfl
  | @cons x y xs ys hxy _ ih =>
    rw [List.mapM_cons, hf x (by simp) y hxy, ih fun z hz => hf z (by simp [hz])]
    rfl

variable {db : Database} {rows : CatalogRows}

theorem readColumns_eq_ok (h : db.IsStorable) {cs : List (String × ColumnDef)}
    (hcs : cs.Perm (db.tables.flatMap columnsOf)) (hrows : List.Forall₂ ColumnRow cs rows.columns) :
    rows.columns.mapM readColumn = .ok (cs.map fun c => (c.1, c.2.stored)) := by
  refine mapM_eq_ok_of_forall₂ hrows fun c hc row hrow => readColumn_of_columnRow hrow ?_
  obtain ⟨t, ht, hc⟩ := List.mem_flatMap.mp (hcs.subset hc)
  obtain ⟨d, hd, rfl⟩ := List.mem_map.mp hc
  exact (h.tables t ht).defaults d hd

/-- Constraints of one table whose names tell them apart. -/
structure AreConstraintsOf (t : Table) (cs : List TableConstraint) : Prop where
  table : ∀ c ∈ cs, c.table = t.name
  nodup : (cs.map TableConstraint.name).Nodup
  columns : ∀ c ∈ cs, c.columns ≠ []
  listed : ∀ c ∈ cs, ∀ d ∈ c.columns, d ∈ t.definitions

theorem areConstraintsOf_keysOf {t : Table} (h : t.IsStorable) : AreConstraintsOf t (keysOf t) := by
  have hmem : ∀ c ∈ keysOf t, c.table = t.name ∧
      ∃ k ∈ t.primaryKey.toList ++ t.uniques, c.columns = k.columns := by
    intro c hc
    rcases List.mem_append.mp hc with hc | hc
    all_goals
      obtain ⟨k, hk, rfl⟩ := List.mem_map.mp hc
      exact ⟨rfl, k, by simp [hk], rfl⟩
  exact {
    table := fun c hc => (hmem c hc).1
    nodup := by simpa [keysOf, Function.comp_def] using h.keyNames
    columns := by
      intro c hc
      obtain ⟨-, k, hk, he⟩ := hmem c hc
      exact he ▸ h.keyColumns k hk
    listed := by
      intro c hc d hd
      apply h.listed
      obtain ⟨-, k, hk, he⟩ := hmem c hc
      rw [he] at hd
      rcases List.mem_append.mp hk with hk | hk
      · exact t.mem_listedColumns_of_primaryKey (Option.mem_toList.mp hk) hd
      · exact t.mem_listedColumns_of_unique hk hd }

theorem areConstraintsOf_indicesOf {t : Table} (h : t.IsStorable) :
    AreConstraintsOf t (indicesOf t) := by
  have hmem : ∀ c ∈ indicesOf t, c.table = t.name ∧ ∃ i ∈ t.indices, c.columns = i.columns := by
    intro c hc
    obtain ⟨i, hi, rfl⟩ := List.mem_map.mp hc
    exact ⟨rfl, i, hi, rfl⟩
  exact {
    table := fun c hc => (hmem c hc).1
    nodup := by simpa [indicesOf, Function.comp_def] using h.indexNames
    columns := by
      intro c hc
      obtain ⟨-, i, hi, he⟩ := hmem c hc
      exact he ▸ h.indexColumns i hi
    listed := by
      intro c hc d hd
      apply h.listed
      obtain ⟨-, i, hi, he⟩ := hmem c hc
      exact t.mem_listedColumns_of_index hi (he ▸ hd) }

section

variable {cs : List TableConstraint} {f : Table → List TableConstraint}
  (hcs : cs.Perm (db.tables.flatMap f)) (hf : ∀ t ∈ db.tables, AreConstraintsOf t (f t))
  (hnames : (db.tables.map Table.name).Nodup)

include hcs hf hnames

/-- The constraints that were described come out of the joined rows. -/
theorem joinRows_eq :
    joinRows (cs.flatMap (·.rows.members)) = cs.map TableConstraint.rows := by
  have hflat : cs.flatMap (·.rows.members) =
      (cs.map TableConstraint.rows).flatMap ConstraintRows.members := by
    rw [List.flatMap_map]
  rw [hflat]
  refine joinRows_flatMap_members ?_ ?_
  · rintro _ hr
    obtain ⟨c, hc, rfl⟩ := List.mem_map.mp hr
    obtain ⟨t, ht, hc⟩ := List.mem_flatMap.mp (hcs.subset hc)
    simpa [TableConstraint.rows] using (hf t ht).columns c hc
  · have hkeys : ((db.tables.flatMap f).map fun c => (c.table, c.name)).Nodup := by
      rw [List.map_flatMap, List.nodup_flatMap]
      refine ⟨fun t ht => ?_, ?_⟩
      · refine List.Nodup.of_map Prod.snd ?_
        rw [List.map_map]
        exact (hf t ht).nodup
      · refine (List.pairwise_map.mp hnames).imp_of_mem fun {t u} ht hu htu => ?_
        rintro key hkey hkey'
        obtain ⟨c, hc, rfl⟩ := List.mem_map.mp hkey
        obtain ⟨d, hd, he⟩ := List.mem_map.mp hkey'
        exact htu (((hf t ht).table c hc).symm.trans
          ((congrArg Prod.fst he).symm.trans ((hf u hu).table d hd)))
    rw [List.map_map]
    exact ((hcs.map fun c => (c.table, c.name)).nodup_iff).mpr hkeys

theorem filter_table_perm {t : Table} (ht : t ∈ db.tables) :
    (cs.filter (·.table = t.name)).Perm (f t) :=
  (hcs.filter _).trans
    (.of_eq (filter_flatMap_of_key (fun u hu => (hf u hu).table) hnames ht))

end

/-- The table has the columns of the other one, up to order and without further bits. -/
structure HasColumnsOf (parts : TableParts) (t : Table) : Prop where
  name : parts.name = t.name
  columns : parts.columns.Perm (t.definitions.map ColumnDef.stored)
  bare : parts = ⟨parts.name, parts.columns, none, [], []⟩

theorem Gathers.hasColumnsOf {cs : List (String × ColumnDef)} {ts : List TableParts}
    (hts : Gathers (cs.map fun c => (c.1, c.2.stored)) ts)
    (hcs : cs.Perm (db.tables.flatMap columnsOf)) (hnames : (db.tables.map Table.name).Nodup)
    {parts : TableParts} (hparts : parts ∈ ts) {t : Table} (ht : t ∈ db.tables)
    (hname : parts.name = t.name) : HasColumnsOf parts t := by
  have hown : (cs.filter (·.1 = t.name)).Perm (columnsOf t) := by
    have hkey : ∀ u ∈ db.tables, ∀ c ∈ columnsOf u, c.1 = u.name := by
      intro u _ c hc
      obtain ⟨d, _, rfl⟩ := List.mem_map.mp hc
      rfl
    exact (hcs.filter _).trans (.of_eq (filter_flatMap_of_key hkey hnames ht))
  have hdefinitions : (definitionsOf (cs.map fun c => (c.1, c.2.stored)) t.name).Perm
      (t.definitions.map ColumnDef.stored) := by
    rw [definitionsOf, List.filter_map, List.map_map]
    refine (hown.map fun c => c.2.stored).trans (.of_eq ?_)
    rw [columnsOf, List.map_map]
    rfl
  have hbare := hts.parts parts hparts
  refine ⟨hname, ?_, ?_⟩
  · rw [hbare, hname]
    exact hdefinitions
  · rw [hbare]

theorem Gathers.names_perm {cs : List (String × ColumnDef)} {ts : List TableParts}
    (hts : Gathers (cs.map fun c => (c.1, c.2.stored)) ts)
    (hcs : cs.Perm (db.tables.flatMap columnsOf)) (h : db.IsStorable) :
    (ts.map TableParts.name).Perm (db.tables.map Table.name) := by
  rw [List.perm_ext_iff_of_nodup hts.nodup h.names]
  intro name
  rw [hts.names, List.map_map]
  constructor
  · intro hname
    obtain ⟨c, hc, rfl⟩ := List.mem_map.mp hname
    obtain ⟨t, ht, hc⟩ := List.mem_flatMap.mp (hcs.subset hc)
    obtain ⟨d, _, rfl⟩ := List.mem_map.mp hc
    exact List.mem_map_of_mem ht
  · intro hname
    obtain ⟨t, ht, rfl⟩ := List.mem_map.mp hname
    obtain ⟨c, columns, hcolumns⟩ := List.exists_cons_of_ne_nil (h.tables t ht).columns
    refine List.mem_map.mpr ⟨(t.name, c.definition), hcs.symm.subset ?_, rfl⟩
    refine List.mem_flatMap.mpr ⟨t, ht, List.mem_map_of_mem ?_⟩
    simp [Table.definitions, hcolumns]

theorem resolve_rows {parts : TableParts} {t : Table}
    (hcolumns : parts.columns.Perm (t.definitions.map ColumnDef.stored))
    (hnames : t.columnNames.Nodup) {c : TableConstraint} (hc : ∀ d ∈ c.columns, d ∈ t.definitions) :
    parts.resolve c.rows = .ok (c.columns.map ColumnDef.stored) := by
  have hnodup : (parts.columns.map ColumnDef.name).Nodup := by
    refine ((hcolumns.map ColumnDef.name).nodup_iff).mpr ?_
    rw [List.map_map]
    exact hnames
  rw [TableParts.resolve, TableConstraint.rows, List.mapM_map]
  refine mapM_eq_ok_map fun d hd => ?_
  have hstored : d.stored ∈ parts.columns :=
    hcolumns.symm.subset (List.mem_map_of_mem (hc d hd))
  have hfind : parts.column? d.name = some d.stored :=
    (find?_eq_some_iff_of_nodup hnodup).mpr ⟨hstored, rfl⟩
  simp only [Function.comp_apply, hfind]

/-- Every constraint finds its columns in the table that it names. -/
theorem resolve_of_perm (h : db.IsStorable) {cs : List TableConstraint}
    {f : Table → List TableConstraint} (hcs : cs.Perm (db.tables.flatMap f))
    (hf : ∀ t ∈ db.tables, AreConstraintsOf t (f t)) {parts : TableParts}
    (hparts : ∀ t ∈ db.tables, parts.name = t.name →
      parts.columns.Perm (t.definitions.map ColumnDef.stored)) :
    ∀ c ∈ cs, c.table = parts.name →
      parts.resolve c.rows = .ok (c.columns.map ColumnDef.stored) := by
  intro c hc hname
  obtain ⟨t, ht, hc⟩ := List.mem_flatMap.mp (hcs.subset hc)
  have hcolumns := hparts t ht (hname.symm.trans ((hf t ht).table c hc))
  exact resolve_rows hcolumns (h.tables t ht).columnNames ((hf t ht).listed c hc)

theorem filterMap_constraintsOf (t : Table) :
    (keysOf t ++ indicesOf t).filterMap (TableConstraint.key? .primaryKey) =
        t.primaryKey.toList.map Key.stored ∧
      (keysOf t ++ indicesOf t).filterMap (TableConstraint.key? .unique) =
        t.uniques.map Key.stored ∧
      (keysOf t ++ indicesOf t).filterMap TableConstraint.index? =
        t.indices.map Index.stored := by
  refine ⟨?_, ?_, ?_⟩ <;>
    simp [keysOf, indicesOf, List.filterMap_append, List.filterMap_map, Function.comp_def,
      TableConstraint.key?, TableConstraint.index?, Key.stored, Index.stored]

/-- The table is the other one as the catalogue knows it. -/
structure Restores (parts : TableParts) (t : Table) : Prop where
  name : parts.name = t.name
  columns : parts.columns.Perm (t.definitions.map ColumnDef.stored)
  primaryKey : parts.primaryKey = t.primaryKey.map Key.stored
  indices : parts.indices.Perm (t.indices.map Index.stored)
  uniques : parts.uniques.Perm (t.uniques.map Key.stored)

theorem HasColumnsOf.restores_taking {parts : TableParts} {t : Table} (h : HasColumnsOf parts t)
    {cs : List TableConstraint} (hcs : cs.Perm (keysOf t ++ indicesOf t)) :
    Restores (parts.taking cs) t := by
  obtain ⟨hkey, hunique, hindex⟩ := filterMap_constraintsOf t
  have hkeys := hcs.filterMap (TableConstraint.key? .primaryKey)
  rw [hkey] at hkeys
  have hprimaryKey : (cs.filterMap (TableConstraint.key? .primaryKey)).getLast? =
      t.primaryKey.map Key.stored := by
    cases hk : t.primaryKey with
    | none =>
      rw [hk] at hkeys
      rw [List.perm_nil.mp hkeys]
      rfl
    | some k =>
      rw [hk] at hkeys
      rw [List.perm_singleton.mp hkeys]
      rfl
  have hindices := (hcs.filterMap TableConstraint.index?).trans (.of_eq hindex)
  have huniques := (hcs.filterMap (TableConstraint.key? .unique)).trans (.of_eq hunique)
  exact {
    name := h.name
    columns := h.columns
    primaryKey := by
      rw [TableParts.taking, h.bare]
      simp [hprimaryKey]
    indices := by
      rw [TableParts.taking, h.bare]
      simpa using hindices
    uniques := by
      rw [TableParts.taking, h.bare]
      simpa using huniques }

/-- Rows that describe a database are put together to its tables. -/
theorem tableParts_eq_ok (h : db.IsStorable) (hrows : Describes rows db) :
    ∃ parts, rows.tableParts = .ok parts ∧
      (parts.map TableParts.name).Perm (db.tables.map Table.name) ∧
      ∀ p ∈ parts, ∃ t ∈ db.tables, Restores p t := by
  obtain ⟨cs, hcs, hcolumns⟩ := hrows.columns
  obtain ⟨ks, hks, hkeys⟩ := hrows.constraints
  obtain ⟨is, his, hindexes⟩ := hrows.indexes
  have hkeysOf := fun t ht => areConstraintsOf_keysOf (h.tables t ht)
  have hindicesOf := fun t ht => areConstraintsOf_indicesOf (h.tables t ht)
  have hmembers : rows.constraints.mapM readMember = .ok (ks.flatMap (·.rows.members)) :=
    (mapM_eq_ok_of_forall₂ (g := fun m => m) hkeys fun _ _ _ hr => readMember_of_keyRow hr).trans
      (by rw [List.map_id'])
  have hindexMembers : rows.indexes.mapM readIndexMember = .ok (is.flatMap (·.rows.members)) :=
    (mapM_eq_ok_of_forall₂ (g := fun m => m) hindexes
      fun _ _ _ hr => readIndexMember_of_indexRow hr).trans (by rw [List.map_id'])
  have hts := gathers_foldl (cs.map fun c => (c.1, c.2.stored))
  have hnamesPerm := hts.names_perm hcs h
  have hhas := fun (p : TableParts) hp (t : Table) ht (hn : p.name = t.name) =>
    hts.hasColumnsOf hcs h.names hp ht hn
  unfold CatalogRows.tableParts
  rw [readColumns_eq_ok h hcs hcolumns, ok_bind, hmembers, ok_bind, joinRows_eq hks hkeysOf h.names]
  generalize List.foldl _ [] (cs.map fun c => (c.1, c.2.stored)) = ts at hts hnamesPerm hhas ⊢
  have hfirst : addConstraints ts (ks.map TableConstraint.rows) = _ :=
    addConstraints_eq_ok hts.nodup fun p hp =>
      resolve_of_perm h hks hkeysOf fun t ht hn => (hhas p hp t ht hn).columns
  let keyed : List TableParts := ts.map fun p => p.taking (ks.filter (·.table = p.name))
  have hkeyed : (keyed.map TableParts.name).Nodup := by
    rw [List.map_map]
    exact hts.nodup
  -- keys leave the columns of the tables alone, so indexes find theirs as well
  have hsecond : addConstraints keyed (is.map TableConstraint.rows) = _ :=
    addConstraints_eq_ok hkeyed fun q hq => by
      obtain ⟨p, hp, rfl⟩ := List.mem_map.mp hq
      exact resolve_of_perm h his hindicesOf fun t ht hn => (hhas p hp t ht hn).columns
  rw [hfirst, ok_bind, hindexMembers, ok_bind, joinRows_eq his hindicesOf h.names, hsecond]
  refine ⟨_, rfl, ?_, ?_⟩
  · rw [List.map_map, List.map_map]
    exact hnamesPerm
  · intro q hq
    rw [List.map_map] at hq
    obtain ⟨p, hp, rfl⟩ := List.mem_map.mp hq
    obtain ⟨t, ht, hn⟩ := List.mem_map.mp (hnamesPerm.subset (List.mem_map_of_mem hp))
    refine ⟨t, ht, ?_⟩
    have hperm : (ks.filter (·.table = p.name) ++ is.filter (·.table = p.name)).Perm
        (keysOf t ++ indicesOf t) := by
      rw [← hn]
      exact (filter_table_perm hks hkeysOf h.names ht).append
        (filter_table_perm his hindicesOf h.names ht)
    have hrestores := (hhas p hp t ht hn.symm).restores_taking hperm
    rwa [← TableParts.taking_append] at hrestores

namespace Restores

variable {parts : TableParts} {t : Table} (h : Restores parts t)

include h

theorem primaryKey_label : parts.primaryKey.map Key.label = t.primaryKey.map Key.label := by
  rw [h.primaryKey, Option.map_map]
  exact congrArg (Option.map · t.primaryKey) (funext Key.label_stored)

theorem indices_label : (parts.indices.map Index.label).Perm (t.indices.map Index.label) := by
  refine (h.indices.map Index.label).trans (.of_eq ?_)
  rw [List.map_map]
  exact List.map_congr_left fun i _ => i.label_stored

theorem uniques_label : (parts.uniques.map Key.label).Perm (t.uniques.map Key.label) := by
  refine (h.uniques.map Key.label).trans (.of_eq ?_)
  rw [List.map_map]
  exact List.map_congr_left fun k _ => k.label_stored

theorem agrees (id : TableId) : (parts.table id).Agrees t := by
  have hdefinitions : (parts.table id).definitions = parts.columns := by
    simp [TableParts.table, Table.withConstraints, Table.definitions, Table.bindAll,
      Function.comp_def]
  exact {
    columns := by
      rw [hdefinitions]
      refine (h.columns.map ColumnDef.shape).trans (.of_eq ?_)
      rw [List.map_map]
      exact List.map_congr_left fun d _ => d.shape_stored
    primaryKey := by
      have hkey := congrArg (Option.map Prod.snd) h.primaryKey_label
      rwa [Option.map_map, Option.map_map] at hkey
    indices := by
      have hindices := h.indices_label.map Prod.snd
      rwa [List.map_map, List.map_map] at hindices
    uniques := by
      have huniques := h.uniques_label.map Prod.snd
      rwa [List.map_map, List.map_map] at huniques }

end Restores

/-- Rows that describe a database are put together to a database of the same structure, and its
constraints have the same names and methods. -/
theorem assemble_of_describes (h : db.IsStorable) (hrows : Describes rows db) (first : TableId)
    (name : String) :
    ∃ restored, rows.assemble first name = .ok restored ∧ restored.name = name ∧
      restored.sameStructure db = true ∧
      ∀ t ∈ db.tables, ∃ u, restored.table? t.name = some u ∧
        u.primaryKey.map Key.label = t.primaryKey.map Key.label ∧
        (u.indices.map Index.label).Perm (t.indices.map Index.label) ∧
        (u.uniques.map Key.label).Perm (t.uniques.map Key.label) := by
  obtain ⟨parts, hparts, hperm, hrestores⟩ := tableParts_eq_ok h hrows
  let tables := parts.mapIdx fun i p => p.table ⟨first.index + i⟩
  have hnames : tables.map Table.name = parts.map TableParts.name := by
    refine List.ext_getElem (by simp [tables]) fun i _ _ => ?_
    simp [tables, TableParts.table, Table.withConstraints]
  have hmem : ∀ u ∈ tables, ∃ p ∈ parts, ∃ id, u = p.table id := by
    intro u hu
    obtain ⟨i, hi, rfl⟩ := List.mem_mapIdx.mp hu
    exact ⟨parts[i], List.getElem_mem hi, _, rfl⟩
  refine ⟨⟨name, tables⟩, ?_, rfl, ?_, ?_⟩
  · rw [CatalogRows.assemble, hparts]
    rfl
  · simp only [Database.sameStructure, Bool.and_eq_true, beq_iff_eq, List.all_eq_true]
    refine ⟨by simpa [← hnames] using hperm.length_eq, fun u hu => ?_⟩
    obtain ⟨p, hp, id, rfl⟩ := hmem u hu
    obtain ⟨t, ht, hr⟩ := hrestores p hp
    have hname : (p.table id).name = t.name := hr.name
    have hfind : db.table? (p.table id).name = some t :=
      (find?_eq_some_iff_of_nodup h.names).mpr ⟨ht, hname.symm⟩
    have hagrees := hr.agrees id
    have hcolumns := (h.tables t ht).columnNames
    rw [hfind]
    exact (Table.sameStructure_iff (hagrees.columnNames.nodup_iff.mpr hcolumns) hcolumns).mpr
      ⟨hname, hagrees⟩
  · intro t ht
    have hmemNames : t.name ∈ tables.map Table.name :=
      hnames ▸ hperm.symm.subset (List.mem_map_of_mem ht)
    obtain ⟨u, hu, hname⟩ := List.mem_map.mp hmemNames
    obtain ⟨p, hp, id, rfl⟩ := hmem u hu
    obtain ⟨t', ht', hr⟩ := hrestores p hp
    obtain rfl : t' = t := List.inj_on_of_nodup_map h.names ht' ht (hr.name.symm.trans hname)
    have hnodup : (tables.map Table.name).Nodup := hnames ▸ hperm.nodup_iff.mpr h.names
    exact ⟨p.table id, (find?_eq_some_iff_of_nodup hnodup).mpr ⟨hu, hname⟩, hr.primaryKey_label,
      hr.indices_label, hr.uniques_label⟩

/-- Two tables with composite and neighbouring constraints, an array and both defaults. -/
def blog : Database :=
  let id : ColumnDef := ⟨"id", .scalar .int64, .serial⟩
  let title : ColumnDef := ⟨"title", .scalar .text, .nullable⟩
  let tags : ColumnDef := ⟨"tags", .array .text, .empty⟩
  let posted : ColumnDef := ⟨"posted", .scalar .timestamp, .defaultNow⟩
  ⟨"blog", [
    .withConstraints ⟨1⟩ "posts" [id, title, tags] (some ⟨"posts_pkey", [title, id]⟩)
      [⟨"posts_tags", .gin, [tags]⟩, ⟨"posts_title", .standard, [title, id]⟩]
      [⟨"posts_a", [id]⟩, ⟨"posts_b", [id, title]⟩],
    .withConstraints ⟨2⟩ "visits" [posted, title] none [⟨"posts_tags", .standard, [posted]⟩]
      [⟨"posts_b", [posted, title]⟩]]⟩

theorem assemble_blog :
    ∃ restored, (rowsOf blog).assemble ⟨5⟩ "copy" = .ok restored ∧ restored.name = "copy" ∧
      restored.sameStructure blog = true ∧
      ∀ t ∈ blog.tables, ∃ u, restored.table? t.name = some u ∧
        u.primaryKey.map Key.label = t.primaryKey.map Key.label ∧
        (u.indices.map Index.label).Perm (t.indices.map Index.label) ∧
        (u.uniques.map Key.label).Perm (t.uniques.map Key.label) :=
  assemble_of_describes
    ⟨by decide, by
      intro t ht
      simp only [blog, List.mem_cons, List.not_mem_nil, or_false] at ht
      rcases ht with rfl | rfl <;> constructor <;> decide⟩
    (describes_rowsOf blog) ⟨5⟩ "copy"

end Postgres

end DeclarativeSql
