import DeclarativeSql.Proofs.Migration.Replacement

/-!
# Structure

What a difference keeps and adds makes up the structure of the target, and two tables of equal
structure differ in nothing.
-/
namespace DeclarativeSql

namespace Table

/-- Equality of shapes and signatures up to order. -/
structure Agrees (a b : Table) : Prop where
  columns : (a.definitions.map ColumnDef.shape).Perm (b.definitions.map ColumnDef.shape)
  primaryKey : a.primaryKeySignature = b.primaryKeySignature
  indices : (a.indices.map Index.signature).Perm (b.indices.map Index.signature)
  uniques : (a.uniques.map Key.signature).Perm (b.uniques.map Key.signature)

theorem Agrees.refl (t : Table) : t.Agrees t := ⟨.rfl, rfl, .rfl, .rfl⟩

theorem Agrees.symm {a b : Table} (h : a.Agrees b) : b.Agrees a :=
  ⟨h.columns.symm, h.primaryKey.symm, h.indices.symm, h.uniques.symm⟩

theorem Agrees.trans {a b c : Table} (hab : a.Agrees b) (hbc : b.Agrees c) : a.Agrees c where
  columns := hab.columns.trans hbc.columns
  primaryKey := hab.primaryKey.trans hbc.primaryKey
  indices := hab.indices.trans hbc.indices
  uniques := hab.uniques.trans hbc.uniques

theorem Agrees.columnNames {a b : Table} (h : a.Agrees b) : a.columnNames.Perm b.columnNames := by
  have h := h.columns.map Prod.fst
  rwa [List.map_map, List.map_map] at h

theorem Agrees.isUnambiguous {a b : Table} (h : a.Agrees b) (hb : b.IsUnambiguous) :
    a.IsUnambiguous where
  columns := h.columnNames.nodup_iff.mpr hb.columns
  indices := h.indices.nodup_iff.mpr hb.indices
  uniques := h.uniques.nodup_iff.mpr hb.uniques

theorem sameStructure_eq (a b : Table) : a.sameStructure b =
    (a.name == b.name && a.columns.length == b.columns.length &&
      a.definitions.all (!b.lacks ·) && a.primaryKeySignature == b.primaryKeySignature &&
      (a.indices.map Index.signature).isPerm (b.indices.map Index.signature) &&
      (a.uniques.map Key.signature).isPerm (b.uniques.map Key.signature)) := by
  unfold sameStructure
  congr 5
  funext d
  unfold lacks
  cases b.columnByName? d.name <;> simp

theorem sameStructure_iff {a b : Table} (ha : a.columnNames.Nodup) (hb : b.columnNames.Nodup) :
    a.sameStructure b = true ↔ a.name = b.name ∧ a.Agrees b := by
  have hlength : a.columns.length = b.columns.length ↔
      (a.definitions.map ColumnDef.shape).length = (b.definitions.map ColumnDef.shape).length := by
    simp [definitions]
  have hcolumns : a.columns.length = b.columns.length ∧ a.definitions.all (!b.lacks ·) = true ↔
      (a.definitions.map ColumnDef.shape).Perm (b.definitions.map ColumnDef.shape) := by
    simp only [hlength, List.all_eq_true, Bool.not_eq_true', lacks_eq_false_iff hb]
    constructor
    · rintro ⟨hl, hs⟩
      refine (List.subperm_of_subset (nodup_shapes ha) ?_).perm_of_length_le (Nat.le_of_eq hl.symm)
      intro k hk
      obtain ⟨d, hd, rfl⟩ := List.mem_map.mp hk
      exact hs d hd
    · intro h
      exact ⟨h.length_eq, fun d hd => h.subset (List.mem_map_of_mem hd)⟩
  rw [sameStructure_eq]
  simp only [Bool.and_eq_true, beq_iff_eq, List.isPerm_iff]
  constructor
  · rintro ⟨⟨⟨⟨⟨hname, hl⟩, hs⟩, hk⟩, hi⟩, hu⟩
    exact ⟨hname, hcolumns.mp ⟨hl, hs⟩, hk, hi, hu⟩
  · rintro ⟨hname, h⟩
    obtain ⟨hl, hs⟩ := hcolumns.mpr h.columns
    exact ⟨⟨⟨⟨⟨hname, hl⟩, hs⟩, h.primaryKey⟩, h.indices⟩, h.uniques⟩

theorem kept_append_columnsNotIn_perm {current target : Table} (hc : current.columnNames.Nodup)
    (ht : target.columnNames.Nodup) :
    ((current.definitions.filter (!target.lacks ·) ++ columnsNotIn target current).map
      ColumnDef.shape).Perm (target.definitions.map ColumnDef.shape) := by
  unfold columnsNotIn
  refine kept_append_added_perm (nodup_shapes hc) (nodup_shapes ht)
    (fun d _ h => (lacks_eq_false_iff ht).mp h) (fun d _ h => (lacks_eq_false_iff hc).mp h)
    fun d hd o ho hs => ?_
  rw [(lacks_eq_false_iff ht).mpr (List.mem_map.mpr ⟨o, ho, hs.symm⟩),
    (lacks_eq_false_iff hc).mpr (List.mem_map.mpr ⟨d, hd, hs⟩)]

theorem primaryKeyChanged_eq_false_iff {current target : Table} :
    primaryKeyChanged current target = false ↔
      current.primaryKeySignature = target.primaryKeySignature ∧
        ∀ k ∈ current.primaryKey, coversReplaced current target k.columns = false := by
  unfold primaryKeyChanged primaryKeySignature
  cases current.primaryKey <;> cases target.primaryKey <;> simp

/-- Tables that are not ambiguous differ in nothing exactly if they agree. -/
theorem isEmpty_diffTable_iff {a b : Table} (ha : a.IsUnambiguous) (hb : b.IsUnambiguous) :
    (diffTable a b).isEmpty = true ↔ a.Agrees b := by
  rw [diffTable_eq ha.columns hb.columns]
  simp only [TableDelta.isEmpty, Bool.and_eq_true, List.isEmpty_iff, Option.isNone_iff_eq_none,
    columnsNotIn, indicesNotIn, uniquesNotIn]
  constructor
  · rintro ⟨⟨⟨⟨⟨⟨⟨hcd, hca⟩, hkd⟩, hka⟩, hid⟩, hia⟩, hud⟩, hua⟩
    refine ⟨?_, ?_, perm_of_filter_isUnmatched_eq_nil (fun _ _ => Index.signatureOf_eq)
        ha.indices hb.indices hid hia,
      perm_of_filter_isUnmatched_eq_nil (fun _ _ h => h) ha.uniques hb.uniques hud hua⟩
    · have h := kept_append_columnsNotIn_perm ha.columns hb.columns
      have hkept : a.definitions.filter (!b.lacks ·) = a.definitions := by
        simpa [List.filter_eq_self] using hcd
      rwa [hkept, columnsNotIn, hca, List.append_nil] at h
    · cases hk : primaryKeyChanged a b with
      | false => exact (primaryKeyChanged_eq_false_iff.mp hk).1
      | true =>
        rw [hk, if_pos rfl] at hkd hka
        rw [primaryKeySignature, primaryKeySignature, hkd, hka]
  · rintro ⟨hc, hk, hi, hu⟩
    have hab : ∀ d ∈ a.definitions, b.lacks d = false := fun d hd =>
      (lacks_eq_false_iff hb.columns).mpr (hc.subset (List.mem_map_of_mem hd))
    have hba : ∀ d ∈ b.definitions, a.lacks d = false := fun d hd =>
      (lacks_eq_false_iff ha.columns).mpr (hc.symm.subset (List.mem_map_of_mem hd))
    have hkey : primaryKeyChanged a b = false :=
      primaryKeyChanged_eq_false_iff.mpr ⟨hk, fun k _ => coversReplaced_eq_false hab k.columns⟩
    refine ⟨⟨⟨⟨⟨⟨⟨?_, ?_⟩, ?_⟩, ?_⟩, filter_isUnmatched_eq_nil hab hi.subset⟩,
      filter_isUnmatched_eq_nil hba hi.symm.subset⟩, filter_isUnmatched_eq_nil hab hu.subset⟩,
      filter_isUnmatched_eq_nil hba hu.symm.subset⟩
    · simpa [List.filter_eq_nil_iff] using hab
    · simpa [List.filter_eq_nil_iff] using hba
    · simp [hkey]
    · simp [hkey]

end Table

namespace Database

/-- Both have tables of the same names, and tables of one name agree. -/
structure Agrees (a b : Database) : Prop where
  names : (a.tables.map Table.name).Perm (b.tables.map Table.name)
  tables : ∀ t ∈ a.tables, ∃ o ∈ b.tables, o.name = t.name ∧ t.Agrees o

variable {a b c : Database}

theorem Agrees.isUnambiguous (h : a.Agrees b) (hb : b.IsUnambiguous) : a.IsUnambiguous where
  names := h.names.nodup_iff.mpr hb.names
  tables t ht := by
    obtain ⟨o, ho, -, hagrees⟩ := h.tables t ht
    exact hagrees.isUnambiguous (hb.tables o ho)

/-- Names tell the tables apart, and the columns of each table. Constraints may be there twice. -/
structure HasDistinctNames (db : Database) : Prop where
  tables : (db.tables.map Table.name).Nodup
  columns : ∀ t ∈ db.tables, t.columnNames.Nodup

theorem IsUnambiguous.hasDistinctNames (h : a.IsUnambiguous) : a.HasDistinctNames :=
  ⟨h.names, fun t ht => (h.tables t ht).columns⟩

theorem Agrees.hasDistinctNames (h : a.Agrees b) (hb : b.HasDistinctNames) :
    a.HasDistinctNames where
  tables := h.names.nodup_iff.mpr hb.tables
  columns t ht := by
    obtain ⟨o, ho, -, hagrees⟩ := h.tables t ht
    exact hagrees.columnNames.nodup_iff.mpr (hb.columns o ho)

theorem Agrees.refl (db : Database) : db.Agrees db where
  names := .rfl
  tables t ht := ⟨t, ht, rfl, .refl t⟩

/-- A table of the right side is the only one of its name there, so it is the counterpart of its
own counterpart. -/
theorem Agrees.symm (h : a.Agrees b) (hb : b.HasDistinctNames) : b.Agrees a where
  names := h.names.symm
  tables t ht := by
    obtain ⟨o, ho, hname⟩ := List.mem_map.mp (h.names.symm.subset (List.mem_map_of_mem ht))
    obtain ⟨u, hu, hcounterpart, hagrees⟩ := h.tables o ho
    obtain rfl := List.inj_on_of_nodup_map hb.tables hu ht (hcounterpart.trans hname)
    exact ⟨o, ho, hname, hagrees.symm⟩

theorem Agrees.trans (hab : a.Agrees b) (hbc : b.Agrees c) : a.Agrees c where
  names := hab.names.trans hbc.names
  tables t ht := by
    obtain ⟨u, hu, hname, htu⟩ := hab.tables t ht
    obtain ⟨o, ho, hother, huo⟩ := hbc.tables u hu
    exact ⟨o, ho, hother.trans hname, htu.trans huo⟩

theorem agrees_of_names (ha : a.HasDistinctNames) (hb : b.HasDistinctNames)
    (hnames : (a.tables.map Table.name).Perm (b.tables.map Table.name))
    (htables : ∀ t ∈ a.tables, ∀ o ∈ b.tables, t.name = o.name → t.sameStructure o = true) :
    a.Agrees b := by
  refine ⟨hnames, fun t ht => ?_⟩
  obtain ⟨o, ho, hname⟩ := List.mem_map.mp (hnames.subset (List.mem_map_of_mem ht))
  have hsame := htables t ht o ho hname.symm
  have hiff := Table.sameStructure_iff (ha.columns t ht) (hb.columns o ho)
  exact ⟨o, ho, hname, (hiff.mp hsame).2⟩

/-- Tables are counted and looked up in one direction, which is as good as both. -/
theorem sameStructure_iff (ha : a.HasDistinctNames) (hb : b.HasDistinctNames) :
    a.sameStructure b = true ↔ a.Agrees b := by
  have hfind : ∀ {name t}, b.table? name = some t ↔ t ∈ b.tables ∧ t.name = name :=
    find?_eq_some_iff_of_nodup hb.tables
  simp only [sameStructure, Bool.and_eq_true, beq_iff_eq, List.all_eq_true]
  constructor
  · rintro ⟨hlength, hfound⟩
    have hsubset : a.tables.map Table.name ⊆ b.tables.map Table.name := by
      intro name hname
      obtain ⟨t, ht, rfl⟩ := List.mem_map.mp hname
      have hfound := hfound t ht
      by_contra hmissing
      rw [table?_eq_none_iff.mpr hmissing] at hfound
      cases hfound
    -- distinct names on one side, all of them on the other, which has no more
    have hnames : (a.tables.map Table.name).Perm (b.tables.map Table.name) := by
      apply (List.subperm_of_subset ha.tables hsubset).perm_of_length_le
      rw [List.length_map, List.length_map]
      omega
    refine agrees_of_names ha hb hnames fun t ht o ho hname => ?_
    have hfound := hfound t ht
    rwa [hfind.mpr ⟨ho, hname.symm⟩] at hfound
  · intro h
    refine ⟨by simpa using h.names.length_eq, fun t ht => ?_⟩
    obtain ⟨o, ho, hname, hagrees⟩ := h.tables t ht
    rw [hfind.mpr ⟨ho, hname⟩]
    exact (Table.sameStructure_iff (ha.columns t ht) (hb.columns o ho)).mpr ⟨hname.symm, hagrees⟩

theorem Agrees.sameStructure (h : a.Agrees b) (hb : b.IsUnambiguous) :
    a.sameStructure b = true :=
  (sameStructure_iff (h.isUnambiguous hb).hasDistinctNames hb.hasDistinctNames).mpr h

/-- Where names are distinct, equality of structure is an equivalence, although it looks tables and
columns up in one direction only. -/
theorem sameStructure_equivalence :
    Equivalence fun a b : { db : Database // db.HasDistinctNames } =>
      a.val.sameStructure b.val = true where
  refl a := (sameStructure_iff a.property a.property).mpr (.refl a.val)
  symm := by
    rintro ⟨a, ha⟩ ⟨b, hb⟩ h
    exact (sameStructure_iff hb ha).mpr (((sameStructure_iff ha hb).mp h).symm hb)
  trans := by
    rintro ⟨a, ha⟩ ⟨b, hb⟩ ⟨c, hc⟩ hab hbc
    have hagrees := ((sameStructure_iff ha hb).mp hab).trans ((sameStructure_iff hb hc).mp hbc)
    exact (sameStructure_iff ha hc).mpr hagrees

/-- A column that is there twice is looked up twice, and a second column never. -/
example :
    let column (name : String) : ColumnDef := ⟨name, .scalar .int64, .empty⟩
    let database (names : List String) : Database :=
      ⟨"app", [.withConstraints ⟨0⟩ "users" (names.map column) none [] []]⟩
    (database ["a", "a"]).sameStructure (database ["a", "b"]) = true ∧
      (database ["a", "b"]).sameStructure (database ["a", "a"]) = false := by
  decide

theorem Agrees.exists_diff (h : a.Agrees b) (hb : b.IsUnambiguous) :
    ∃ delta, diff a b = .ok delta ∧ delta.isEmpty = true := by
  have ha := h.isUnambiguous hb
  refine ⟨_, diff_eq_ok_iff.mpr ⟨ha, hb, rfl⟩, ?_⟩
  simp only [DatabaseDelta.isEmpty, Bool.and_eq_true, List.isEmpty_iff, tablesNotIn,
    List.filter_eq_nil_iff, List.filterMap_eq_nil_iff, Option.isNone_iff_eq_none,
    table?_eq_none_iff, not_not]
  refine ⟨⟨fun t ht => h.names.subset (List.mem_map_of_mem ht),
    fun t ht => h.names.symm.subset (List.mem_map_of_mem ht)⟩, fun o ho => ?_⟩
  unfold modified?
  cases hc : a.table? o.name with
  | none => rfl
  | some c =>
    obtain ⟨hcm, hcn⟩ := ha.table?_eq_some_iff.mp hc
    obtain ⟨o', ho', hn, hagrees⟩ := h.tables c hcm
    obtain rfl := List.inj_on_of_nodup_map hb.names ho' ho (hn.trans hcn)
    exact if_pos ((Table.isEmpty_diffTable_iff (ha.tables c hcm) (hb.tables o' ho)).mpr hagrees)

end Database

end DeclarativeSql
