import DeclarativeSql.Proofs.Migration.SharedNames
import Mathlib.Algebra.Order.Ring.Int

/-!
# What statements leave

Under a strict server every statement changes one thing. What is not dropped by its name stays, and
the size of a database moves by an amount that the statement alone decides.
-/
namespace DeclarativeSql

/-- All that a strict server does to a table. -/
inductive Statement.Alters (t : Table) : Statement → Table → Prop
  | addColumn {table : String} {d : ColumnDef} : d.name ∉ t.columnNames →
      Alters t (.addColumn table d)
        { t with columns := t.columns ++ Table.bindAll t.id t.name [(d.name, d)] }
  | dropColumn {table name : String} : t.covers name = false →
      (t.columns.map Column.name).count name = 1 →
      Alters t (.dropColumn table name) { t with columns := t.columns.filter (·.name ≠ name) }
  | addPrimaryKey {table : String} {k : Key} : t.primaryKey = none →
      Alters t (.addPrimaryKey table k) { t with primaryKey := some k }
  | dropPrimaryKey {table : String} {k : Key} : t.primaryKey = some k →
      Alters t (.dropPrimaryKey table k.name) { t with primaryKey := none }
  | addIndex {table : String} {i : Index} :
      Alters t (.addIndex table i) { t with indices := t.indices ++ [i] }
  | dropIndex {table name : String} : (t.indices.map Index.name).count name = 1 →
      Alters t (.dropIndex table name) { t with indices := t.indices.filter (·.name ≠ name) }
  | addUnique {table : String} {k : Key} :
      Alters t (.addUnique table k) { t with uniques := t.uniques ++ [k] }
  | dropUnique {table name : String} : (t.uniques.map Key.name).count name = 1 →
      Alters t (.dropUnique table name) { t with uniques := t.uniques.filter (·.name ≠ name) }

theorem takeOut_strict_eq_some {α : Type} {key : α → String} {name : String} {xs ys : List α}
    (h : takeOut .strict key name xs = some ys) :
    (xs.map key).count name = 1 ∧ ys = xs.filter (key · ≠ name) := by
  obtain ⟨hcount, rfl⟩ := Option.ite_none_left_eq_some.mp h |>.imp_right Option.some.inj
  exact ⟨by simpa using hcount, rfl⟩

theorem Statement.alters_of_alter {s : Statement} {t u : Table} (h : s.alter .strict t = some u) :
    s.Alters t u := by
  cases s with
  | createTable table ds => cases h
  | dropTable table => cases h
  | addColumn table d =>
    obtain ⟨hnew, rfl⟩ := Option.ite_none_left_eq_some.mp h |>.imp_right Option.some.inj
    exact .addColumn hnew
  | dropColumn table name =>
    obtain ⟨hcovers, h⟩ := Option.ite_none_left_eq_some.mp h
    obtain ⟨columns, hcolumns, rfl⟩ := Option.map_eq_some_iff.mp h
    obtain ⟨hone, rfl⟩ := takeOut_strict_eq_some hcolumns
    exact .dropColumn (by simpa using hcovers) hone
  | addPrimaryKey table k =>
    obtain ⟨hk, rfl⟩ := Option.ite_none_right_eq_some.mp h |>.imp_right Option.some.inj
    rw [Bool.and_eq_true, Option.isNone_iff_eq_none] at hk
    exact .addPrimaryKey hk.1
  | dropPrimaryKey table name =>
    by_cases hk : t.primaryKey.map Key.name = some name
    · rw [alter, if_pos hk] at h
      obtain ⟨k, hkey, rfl⟩ := Option.map_eq_some_iff.mp hk
      cases h
      exact .dropPrimaryKey hkey
    · rw [alter, if_neg hk] at h
      cases h
  | addIndex table i =>
    obtain ⟨-, rfl⟩ := Option.ite_none_right_eq_some.mp h |>.imp_right Option.some.inj
    exact .addIndex
  | dropIndex table name =>
    obtain ⟨indices, hindices, rfl⟩ := Option.map_eq_some_iff.mp h
    obtain ⟨hone, rfl⟩ := takeOut_strict_eq_some hindices
    exact .dropIndex hone
  | addUnique table k =>
    obtain ⟨-, rfl⟩ := Option.ite_none_right_eq_some.mp h |>.imp_right Option.some.inj
    exact .addUnique
  | dropUnique table name =>
    obtain ⟨uniques, huniques, rfl⟩ := Option.map_eq_some_iff.mp h
    obtain ⟨hone, rfl⟩ := takeOut_strict_eq_some huniques
    exact .dropUnique hone

/-- What a statement can drop: a table, or something of a table. -/
inductive Element
  | table
  | column (definition : ColumnDef)
  | primaryKey (key : Key)
  | index (index : Index)
  | unique (key : Key)

namespace Element

/-- The statement that drops the element from the table of a name. -/
def drop (name : String) : Element → Statement
  | table => .dropTable name
  | column d => .dropColumn name d.name
  | primaryKey k => .dropPrimaryKey name k.name
  | index i => .dropIndex name i.name
  | unique k => .dropUnique name k.name

/-- The columns that can not be dropped before the element. -/
def columns : Element → List ColumnDef
  | table | column _ => []
  | primaryKey k | unique k => k.columns
  | index i => i.columns

end Element

namespace Table

def Has (t : Table) : Element → Prop
  | .table => True
  | .column d => d ∈ t.definitions
  | .primaryKey k => t.primaryKey = some k
  | .index i => i ∈ t.indices
  | .unique k => k ∈ t.uniques

theorem covers_of_has {t : Table} {e : Element} (he : t.Has e) {d : ColumnDef}
    (hd : d ∈ e.columns) : t.covers d.name = true := by
  have hcovers : ∀ {columns : List ColumnDef}, d ∈ columns → coversName columns d.name = true :=
    fun hd => coversName_iff.mpr ⟨d, hd, rfl⟩
  simp only [covers, Bool.or_eq_true]
  cases e with
  | table => cases hd
  | column o => cases hd
  | primaryKey k =>
    rw [show t.primaryKey = some k from he]
    exact .inl (.inl (hcovers hd))
  | index i => exact .inl (.inr (List.any_eq_true.mpr ⟨i, he, hcovers hd⟩))
  | unique k => exact .inr (List.any_eq_true.mpr ⟨k, he, hcovers hd⟩)

end Table

/-- A table of the name has the element. -/
def Database.Has (db : Database) (name : String) (e : Element) : Prop :=
  ∃ t ∈ db.tables, t.name = name ∧ t.Has e

namespace Statement

theorem has_of_alters {s : Statement} {t u : Table} {e : Element} (h : s.Alters t u) (he : t.Has e)
    (hs : s ≠ e.drop s.table) : u.Has e := by
  cases e with
  | table => trivial
  | column d =>
    cases h with
    | addColumn hnew =>
      obtain ⟨c, hc, rfl⟩ := List.mem_map.mp he
      exact List.mem_map.mpr ⟨c, List.mem_append_left _ hc, rfl⟩
    | dropColumn hfree hone =>
      obtain ⟨c, hc, rfl⟩ := List.mem_map.mp he
      refine List.mem_map.mpr ⟨c, List.mem_filter.mpr ⟨hc, decide_eq_true ?_⟩, rfl⟩
      rintro rfl
      exact hs rfl
    | _ => exact he
  | primaryKey k =>
    cases h with
    | addPrimaryKey hnone =>
      rw [Table.Has, hnone] at he
      cases he
    | dropPrimaryKey hkey =>
      cases hkey.symm.trans he
      exact absurd rfl hs
    | _ => exact he
  | index i =>
    cases h with
    | addIndex => exact List.mem_append_left _ he
    | dropIndex hone =>
      refine List.mem_filter.mpr ⟨he, decide_eq_true ?_⟩
      rintro rfl
      exact hs rfl
    | _ => exact he
  | unique k =>
    cases h with
    | addUnique => exact List.mem_append_left _ he
    | dropUnique hone =>
      refine List.mem_filter.mpr ⟨he, decide_eq_true ?_⟩
      rintro rfl
      exact hs rfl
    | _ => exact he

section Runs

variable {ss : List Statement} {db after : Database} {name : String} {e : Element}

theorem has_of_apply {s : Statement} (h : s.apply .strict db = some after) (he : db.Has name e)
    (htable : s ≠ .dropTable name) (hs : s ≠ e.drop name) : after.Has name e := by
  obtain ⟨t, ht, hn, he⟩ := he
  obtain ⟨new, ds, rfl, -, -, rfl⟩ | ⟨other, rfl, rfl⟩ |
    ⟨front, u, back, v, hts, -, hu, hv, rfl⟩ := apply_cases h
  · exact ⟨t, List.mem_append_left _ ht, hn, he⟩
  · refine ⟨t, List.mem_filter.mpr ⟨ht, decide_eq_true ?_⟩, hn, he⟩
    rintro rfl
    exact htable (congrArg _ hn)
  · rw [hts, List.mem_append, List.mem_cons] at ht
    rcases ht with ht | rfl | ht
    · exact ⟨t, by simp [ht], hn, he⟩
    · refine ⟨v, by simp, (name_of_alter hv).trans hn, has_of_alters (alters_of_alter hv) he ?_⟩
      rwa [← hu, hn]
    · exact ⟨t, by simp [ht], hn, he⟩

/-- What is there stays, unless it is dropped by its name or with its table. -/
theorem has_of_run (h : run .strict ss db = some after) (he : db.Has name e)
    (htable : .dropTable name ∉ ss) (hss : e.drop name ∉ ss) : after.Has name e := by
  induction ss generalizing db with
  | nil =>
    cases h
    exact he
  | cons s ss ih =>
    rw [List.mem_cons, not_or] at htable hss
    obtain ⟨mid, hmid, hrest⟩ := run_cons_eq_some_iff.mp h
    exact ih hrest (has_of_apply hmid he (Ne.symm htable.1) (Ne.symm hss.1)) htable.2 hss.2

/-- A column is only dropped when nothing stands over it any more. -/
theorem name_ne_of_run_dropColumn {pre post : List Statement} {column : String}
    (hn : (db.tables.map Table.name).Nodup)
    (h : run .strict (pre ++ .dropColumn name column :: post) db = some after)
    (he : db.Has name e) (htable : .dropTable name ∉ pre) (hpre : e.drop name ∉ pre)
    {d : ColumnDef} (hd : d ∈ e.columns) : d.name ≠ column := by
  obtain ⟨mid, hmid, hrest⟩ := run_append_eq_some_iff.mp h
  obtain ⟨next, hnext, -⟩ := run_cons_eq_some_iff.mp hrest
  obtain ⟨t, ht, htn, he⟩ := has_of_run hmid he htable hpre
  obtain ⟨_, _, hs, -⟩ | ⟨_, hs, -⟩ | ⟨front, u, back, v, hts, -, hu, hv, -⟩ := apply_cases hnext
  · cases hs
  · cases hs
  · have hmem : u ∈ mid.tables := by simp [hts]
    obtain rfl := List.inj_on_of_nodup_map (nodup_names_of_run hn hmid) hmem ht (hu.trans htn.symm)
    rintro rfl
    cases alters_of_alter hv with
    | dropColumn hfree hone =>
      rw [Table.covers_of_has he hd] at hfree
      cases hfree

end Runs

end Statement

namespace Table

/-- The table, its columns and its constraints. -/
def size (t : Table) : Nat :=
  1 + t.columns.length + t.primaryKey.toList.length + t.indices.length + t.uniques.length

theorem size_eq_of_sameStructure {a b : Table} (h : a.sameStructure b = true) :
    a.size = b.size := by
  rw [sameStructure_eq] at h
  simp only [Bool.and_eq_true, beq_iff_eq, List.isPerm_iff] at h
  obtain ⟨⟨⟨⟨⟨-, hcolumns⟩, -⟩, hkey⟩, hindices⟩, huniques⟩ := h
  have hkey : a.primaryKey.toList.length = b.primaryKey.toList.length := by
    unfold primaryKeySignature at hkey
    cases ha : a.primaryKey <;> cases hb : b.primaryKey <;> simp_all
  have hindices := hindices.length_eq
  have huniques := huniques.length_eq
  simp only [List.length_map] at hindices huniques
  simp only [size]
  omega

end Table

def Database.size (db : Database) : Nat := (db.tables.map Table.size).sum

namespace Statement

/-- By how much a database grows. What a table takes with it when it is dropped is not said by the
statement. -/
def weight : Statement → Int
  | createTable _ ds => 1 + ds.length
  | dropTable _ => 0
  | addColumn .. | addPrimaryKey .. | addIndex .. | addUnique .. => 1
  | dropColumn .. | dropPrimaryKey .. | dropIndex .. | dropUnique .. => -1

theorem length_filter_ne {α : Type} {key : α → String} {name : String} {xs : List α}
    (h : (xs.map key).count name = 1) : (xs.filter (key · ≠ name)).length + 1 = xs.length := by
  have hsplit := List.length_eq_countP_add_countP (fun x => decide (key x ≠ name)) (l := xs)
  have hone : xs.countP (fun x => ¬ decide (key x ≠ name) = true) = 1 := by
    rw [List.count, List.countP_map] at h
    rw [← h]
    exact List.countP_congr fun x _ => by simp
  rw [← List.countP_eq_length_filter]
  omega

theorem size_of_alters {s : Statement} {t u : Table} (h : s.Alters t u) :
    (u.size : Int) = t.size + s.weight := by
  cases h with
  | addColumn hnew =>
    simp [Table.size, weight, Table.bindAll]
    omega
  | dropColumn hfree hone =>
    have hlength := length_filter_ne hone
    simp only [Table.size, weight]
    omega
  | addPrimaryKey hnone =>
    simp [Table.size, weight, hnone]
    omega
  | dropPrimaryKey hkey =>
    simp [Table.size, weight, hkey]
    omega
  | addIndex =>
    simp [Table.size, weight]
    omega
  | dropIndex hone =>
    have hlength := length_filter_ne hone
    simp only [Table.size, weight]
    omega
  | addUnique =>
    simp [Table.size, weight]
    omega
  | dropUnique hone =>
    have hlength := length_filter_ne hone
    simp only [Table.size, weight]
    omega

variable {ss : List Statement} {db after : Database}

theorem size_of_apply {s : Statement} (h : s.apply .strict db = some after)
    (hs : ∀ name, s ≠ .dropTable name) : (after.size : Int) = db.size + s.weight := by
  obtain ⟨name, ds, rfl, -, -, rfl⟩ | ⟨name, rfl, -⟩ |
    ⟨front, t, back, u, hts, -, -, hu, rfl⟩ := apply_cases h
  · have hsize : (Table.created name ds).size = 1 + ds.length := by
      simp [Table.size, Table.created, Table.withConstraints, Table.bindAll]
    simp [Database.size, hsize, weight]
  · exact absurd rfl (hs name)
  · have hsize := size_of_alters (alters_of_alter hu)
    simp only [Database.size, hts, List.map_append, List.map_cons, List.sum_append, List.sum_cons]
    omega

/-- As long as no table is dropped, the statements of a run say how much the database grows. -/
theorem size_of_run (h : run .strict ss db = some after) (hss : ∀ name, .dropTable name ∉ ss) :
    (after.size : Int) = db.size + (ss.map weight).sum := by
  induction ss generalizing db with
  | nil =>
    cases h
    simp
  | cons s ss ih =>
    obtain ⟨mid, hmid, hrest⟩ := run_cons_eq_some_iff.mp h
    have hstep := size_of_apply hmid fun name hs => hss name (by simp [hs])
    have hrest := ih hrest fun name hs => hss name (List.mem_cons_of_mem _ hs)
    rw [List.map_cons, List.sum_cons]
    omega

end Statement

theorem Database.size_eq_of_sameStructure {a b : Database}
    (ha : (a.tables.map Table.name).Nodup) (hb : b.IsUnambiguous)
    (h : a.sameStructure b = true) : a.size = b.size := by
  let label (t : Table) : String × Nat := (t.name, t.size)
  have hnodup : (a.tables.map label).Nodup := by
    refine List.Nodup.of_map Prod.fst ?_
    rwa [List.map_map]
  have hsubset : a.tables.map label ⊆ b.tables.map label := by
    intro found hfound
    obtain ⟨t, ht, rfl⟩ := List.mem_map.mp hfound
    obtain ⟨o, ho, hn, hsame⟩ := Database.exists_of_sameStructure hb h ht
    have hsize := Table.size_eq_of_sameStructure hsame
    exact List.mem_map.mpr ⟨o, ho, by simp only [label, hn, hsize]⟩
  have hlength : a.tables.length = b.tables.length := by
    simp only [sameStructure, Bool.and_eq_true, beq_iff_eq] at h
    exact h.1
  have hperm : (a.tables.map label).Perm (b.tables.map label) := by
    apply (List.subperm_of_subset hnodup hsubset).perm_of_length_le
    rw [List.length_map, List.length_map]
    omega
  have hsizes := (hperm.map Prod.snd).sum_nat
  rwa [List.map_map, List.map_map] at hsizes

end DeclarativeSql
