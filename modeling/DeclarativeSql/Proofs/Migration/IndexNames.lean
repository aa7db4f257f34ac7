import DeclarativeSql.Proofs.Migration.RoundTrip
import Mathlib.Data.List.Induction

/-!
# Names of indices

Indices of all tables share one space of names. Where a name is taken an index is not added, and
what has a name is dropped in whatever table it is. Beside this stands the server that looks names
up table by table, and what it holds after each statement.
-/
namespace DeclarativeSql

namespace Database

def indexNames (db : Database) : List String :=
  db.tables.flatMap fun t => t.indices.map Index.name

/-- A table of the name has the index. -/
def Holds (db : Database) (table : String) (i : Index) : Prop :=
  ∃ t ∈ db.tables, t.name = table ∧ i ∈ t.indices

theorem mem_indexNames_iff {db : Database} {name : String} :
    name ∈ db.indexNames ↔ ∃ table i, db.Holds table i ∧ i.name = name := by
  simp only [indexNames, List.mem_flatMap, List.mem_map, Holds]
  constructor
  · rintro ⟨t, ht, i, hi, rfl⟩
    exact ⟨t.name, i, ⟨t, ht, rfl, hi⟩, rfl⟩
  · rintro ⟨_, i, ⟨t, ht, -, hi⟩, rfl⟩
    exact ⟨t, ht, i, hi, rfl⟩

theorem eq_of_name_eq {db : Database} (h : db.indexNames.Nodup) {t u : String} {i j : Index}
    (hi : db.Holds t i) (hj : db.Holds u j) (hn : i.name = j.name) : t = u ∧ i = j := by
  let placed := db.tables.flatMap fun t => t.indices.map fun i => (t.name, i)
  have hnames : placed.map (·.2.name) = db.indexNames := by
    simp [placed, indexNames, List.map_flatMap, Function.comp_def]
  have hmem : ∀ {t i}, db.Holds t i → (t, i) ∈ placed := by
    rintro _ i ⟨t, ht, rfl, hi⟩
    exact List.mem_flatMap.mpr ⟨t, ht, List.mem_map_of_mem hi⟩
  rw [← hnames] at h
  exact Prod.mk.injEq .. ▸ List.inj_on_of_nodup_map h (hmem hi) (hmem hj) hn

/-- Drops the index of a name in whatever table it is. -/
def dropIndexNamed (db : Database) (name : String) : Database :=
  { db with tables := db.tables.map fun t =>
    { t with indices := t.indices.filter (·.name ≠ name) } }

end Database

namespace Statement

/-- One statement where all tables share the names of indices. -/
def applyShared : Statement → Database → Option Database
  | addIndex table i, db =>
    if i.name ∈ db.indexNames then some db else (addIndex table i).apply .lenient db
  | dropIndex _ name, db => some (db.dropIndexNamed name)
  | s, db => s.apply .lenient db

def runShared (ss : List Statement) (db : Database) : Option Database :=
  ss.foldlM (fun db s => s.applyShared db) db

theorem exists_of_alterFirst {name : String} {f : Table → Option Table} {ts us : List Table}
    (h : Table.alterFirst name f ts = some us) : ∃ front t back u, ts = front ++ t :: back ∧
      name ∉ front.map Table.name ∧ t.name = name ∧ f t = some u ∧ us = front ++ u :: back := by
  induction ts generalizing us with
  | nil => cases h
  | cons t ts ih =>
    unfold Table.alterFirst at h
    split at h
    next ht =>
      obtain ⟨u, hu, rfl⟩ := Option.map_eq_some_iff.mp h
      exact ⟨[], t, ts, u, rfl, by simp, ht, hu, rfl⟩
    next ht =>
      obtain ⟨us, hus, rfl⟩ := Option.map_eq_some_iff.mp h
      obtain ⟨front, t', back, u, rfl, hfront, ht', hu, rfl⟩ := ih hus
      exact ⟨t :: front, t', back, u, rfl, by simp [hfront, Ne.symm ht], ht', hu, rfl⟩

/-- All that a statement can do. -/
theorem apply_cases {server : Server} {s : Statement} {db after : Database}
    (h : s.apply server db = some after) :
    (∃ name ds, s = .createTable name ds ∧ name ∉ db.tables.map Table.name ∧
      (ds.map ColumnDef.name).Nodup ∧
      after = { db with tables := db.tables ++ [.created name ds] }) ∨
    (∃ name, s = .dropTable name ∧
      after = { db with tables := db.tables.filter (·.name ≠ name) }) ∨
    (∃ front t back u, db.tables = front ++ t :: back ∧ s.table ∉ front.map Table.name ∧
      t.name = s.table ∧ s.alter server t = some u ∧
      after = { db with tables := front ++ u :: back }) := by
  have halter : (Table.alterFirst s.table (s.alter server) db.tables).map
      (fun tables => { db with tables }) = some after →
      ∃ front t back u, db.tables = front ++ t :: back ∧ s.table ∉ front.map Table.name ∧
        t.name = s.table ∧ s.alter server t = some u ∧
        after = { db with tables := front ++ u :: back } := by
    intro h
    obtain ⟨us, hus, rfl⟩ := Option.map_eq_some_iff.mp h
    obtain ⟨front, t, back, u, hts, hfront, ht, hu, rfl⟩ := exists_of_alterFirst hus
    exact ⟨front, t, back, u, hts, hfront, ht, hu, rfl⟩
  cases s with
  | createTable name ds =>
    obtain ⟨⟨hnew, hds⟩, rfl⟩ := Option.ite_none_right_eq_some.mp h |>.imp_right Option.some.inj
    exact .inl ⟨name, ds, rfl, hnew, hds, rfl⟩
  | dropTable name =>
    obtain ⟨tables, ht, rfl⟩ := Option.map_eq_some_iff.mp h
    obtain ⟨-, rfl⟩ := Option.ite_none_left_eq_some.mp ht |>.imp_right Option.some.inj
    exact .inr (.inl ⟨name, rfl, rfl⟩)
  | _ => exact .inr (.inr (halter h))

/-- The indices of a table after a statement about it. -/
def indicesAfter : Statement → List Index → List Index
  | addIndex _ i, is => is ++ [i]
  | dropIndex _ name, is => is.filter (·.name ≠ name)
  | _, is => is

theorem indices_of_alter {server : Server} {s : Statement} {t u : Table}
    (h : s.alter server t = some u) : u.indices = s.indicesAfter t.indices := by
  unfold alter takeOut at h
  split at h
  all_goals grind [indicesAfter]

theorem mem_indicesAfter_iff {s : Statement} {is : List Index} {i : Index} :
    i ∈ s.indicesAfter is ↔
      (i ∈ is ∧ s ≠ .dropIndex s.table i.name) ∨ s = .addIndex s.table i := by
  cases s with
  | addIndex _ j =>
    simp only [indicesAfter, table, List.mem_append, List.mem_singleton]
    grind
  | dropIndex _ name =>
    simp only [indicesAfter, table, List.mem_filter, decide_eq_true_eq]
    grind
  | _ => simp [indicesAfter]

theorem holds_of_apply {server : Server} {s : Statement} {db after : Database}
    (hn : (db.tables.map Table.name).Nodup) (h : s.apply server db = some after) :
    (after.tables.map Table.name).Nodup ∧ ∀ table i, after.Holds table i ↔
      (db.Holds table i ∧ s ≠ .dropTable table ∧ s ≠ .dropIndex table i.name) ∨
        s = .addIndex table i := by
  obtain ⟨name, ds, rfl, hnew, -, rfl⟩ | ⟨name, rfl, rfl⟩ |
    ⟨front, t, back, u, hts, hfront, ht, hu, rfl⟩ := apply_cases h
  · refine ⟨?_, fun table i => ?_⟩
    · rw [List.map_append]
      refine hn.append (List.nodup_singleton _) ?_
      simpa [Table.created, Table.withConstraints] using hnew
    · have hnone : (Table.created name ds).indices = [] := rfl
      simp [Database.Holds, hnone, or_and_right, exists_or]
  · refine ⟨hn.sublist (List.filter_sublist.map _), fun table i => ?_⟩
    simp only [Database.Holds, List.mem_filter, decide_eq_true_eq]
    grind
  · have hname : u.name = t.name := name_of_alter hu
    rw [hts] at hn
    have hback : t.name ∉ back.map Table.name := (notMem_map_of_nodup hn).2
    rw [List.map_append, List.map_cons] at hn
    refine ⟨by rwa [List.map_append, List.map_cons, hname], fun table i => ?_⟩
    have hdrop : s ≠ .dropTable table := by
      rintro rfl
      cases hu
    by_cases htable : table = s.table
    · subst htable
      have hfront' : ∀ x ∈ front, x.name ≠ s.table := by simpa using hfront
      have hback' : ∀ x ∈ back, x.name ≠ s.table := by simpa [ht] using hback
      have hone : ∀ (d : Database) (v : Table), d.tables = front ++ v :: back →
          v.name = s.table → (d.Holds s.table i ↔ i ∈ v.indices) := by
        intro d v hd hv
        simp only [Database.Holds, hd, List.mem_append, List.mem_cons]
        grind
      rw [hone db t hts ht, hone _ u rfl (hname.trans ht), indices_of_alter hu,
        mem_indicesAfter_iff]
      simp [hdrop]
    · have hother : s ≠ .dropIndex table i.name ∧ s ≠ .addIndex table i := by
        constructor <;> rintro rfl <;> exact htable rfl
      simp only [Database.Holds, hts, List.mem_append, List.mem_cons]
      grind

theorem run_append_eq_some_iff {server : Server} {ss us : List Statement} {db after : Database} :
    run server (ss ++ us) db = some after ↔
      ∃ mid, run server ss db = some mid ∧ run server us mid = some after := by
  rw [run, List.foldlM_append, Option.bind_eq_bind, Option.bind_eq_some_iff]
  rfl

theorem run_singleton {server : Server} (s : Statement) (db : Database) :
    run server [s] db = s.apply server db := by
  simp [run]

theorem run_cons_eq_some_iff {server : Server} {s : Statement} {ss : List Statement}
    {db after : Database} : run server (s :: ss) db = some after ↔
      ∃ mid, s.apply server db = some mid ∧ run server ss mid = some after := by
  rw [run, List.foldlM_cons, Option.bind_eq_bind, Option.bind_eq_some_iff]
  rfl

section Runs

variable {server : Server} {ss : List Statement} {db after : Database}

theorem nodup_names_of_run (hn : (db.tables.map Table.name).Nodup)
    (h : run server ss db = some after) : (after.tables.map Table.name).Nodup := by
  induction ss using List.reverseRecOn generalizing after with
  | nil =>
    cases h
    exact hn
  | append_singleton ss s ih =>
    obtain ⟨mid, hmid, hs⟩ := run_append_eq_some_iff.mp h
    rw [run_singleton] at hs
    exact (holds_of_apply (ih hmid) hs).1

/-- What is there was added, or it was there before and not dropped. -/
theorem origin_of_run (hn : (db.tables.map Table.name).Nodup) (h : run server ss db = some after)
    {table : String} {i : Index} (hi : after.Holds table i) :
    .addIndex table i ∈ ss ∨
      (db.Holds table i ∧ .dropTable table ∉ ss ∧ .dropIndex table i.name ∉ ss) := by
  induction ss using List.reverseRecOn generalizing after with
  | nil =>
    cases h
    exact .inr ⟨hi, by simp, by simp⟩
  | append_singleton ss s ih =>
    obtain ⟨mid, hmid, hs⟩ := run_append_eq_some_iff.mp h
    rw [run_singleton] at hs
    obtain ⟨hi, htable, hindex⟩ | rfl :=
      ((holds_of_apply (nodup_names_of_run hn hmid) hs).2 table i).mp hi
    · rcases ih hmid hi with hadd | ⟨hdb, ht, hd⟩
      · exact .inl (List.mem_append_left _ hadd)
      · exact .inr ⟨hdb, by simp [ht, htable.symm], by simp [hd, hindex.symm]⟩
    · exact .inl (by simp)

theorem holds_of_run (hn : (db.tables.map Table.name).Nodup) (h : run server ss db = some after)
    {table : String} {i : Index} (hi : db.Holds table i) (htable : .dropTable table ∉ ss)
    (hindex : .dropIndex table i.name ∉ ss) : after.Holds table i := by
  induction ss using List.reverseRecOn generalizing after with
  | nil =>
    cases h
    exact hi
  | append_singleton ss s ih =>
    obtain ⟨mid, hmid, hs⟩ := run_append_eq_some_iff.mp h
    rw [run_singleton] at hs
    rw [List.mem_append, not_or, List.mem_singleton] at htable hindex
    exact ((holds_of_apply (nodup_names_of_run hn hmid) hs).2 table i).mpr
      (.inl ⟨ih hmid htable.1 hindex.1, Ne.symm htable.2, Ne.symm hindex.2⟩)

end Runs

end Statement

section Thin

variable (keep : String → Index → Bool)

def Table.thin (t : Table) : Table := { t with indices := t.indices.filter (keep t.name) }

/-- Only the indices to keep. -/
def Database.thin (db : Database) : Database :=
  { db with tables := db.tables.map (Table.thin keep) }

theorem Table.covers_thin {t : Table} {column : String} (h : t.covers column = false) :
    (t.thin keep).covers column = false := by
  simp only [covers, thin, Bool.or_eq_false_iff, List.any_eq_false] at h ⊢
  exact ⟨⟨h.1.1, fun i hi => h.1.2 i (List.mem_of_mem_filter hi)⟩, h.2⟩

theorem Table.names_map_thin (ts : List Table) :
    (ts.map (Table.thin keep)).map Table.name = ts.map Table.name := by
  rw [List.map_map]
  rfl

theorem Database.holds_thin_iff {db : Database} {table : String} {i : Index} :
    (db.thin keep).Holds table i ↔ db.Holds table i ∧ keep table i = true := by
  simp only [Holds, thin, List.mem_map]
  constructor
  · rintro ⟨_, ⟨t, ht, rfl⟩, rfl, hi⟩
    obtain ⟨hi, hk⟩ := List.mem_filter.mp hi
    exact ⟨⟨t, ht, rfl, hi⟩, hk⟩
  · rintro ⟨⟨t, ht, rfl, hi⟩, hk⟩
    exact ⟨_, ⟨t, ht, rfl⟩, rfl, List.mem_filter.mpr ⟨hi, hk⟩⟩

theorem Table.thin_eq_self {keep : String → Index → Bool} {t : Table}
    (h : ∀ i ∈ t.indices, keep t.name i = true) : t.thin keep = t := by
  rw [thin, List.filter_eq_self.mpr h]

theorem Database.thin_eq_self {keep : String → Index → Bool} {db : Database}
    (h : ∀ table i, db.Holds table i → keep table i = true) : db.thin keep = db := by
  have hid : db.tables.map (Table.thin keep) = db.tables.map id :=
    List.map_congr_left fun t ht => Table.thin_eq_self fun i hi => h t.name i ⟨t, ht, rfl, hi⟩
  rw [thin, hid, List.map_id]

namespace Statement

variable {keep}

/-- Statements that do not name an index do not care for indices that are missing. -/
theorem alter_thin {server : Server} {s : Statement} {t u : Table}
    (hadd : ∀ table i, s ≠ .addIndex table i) (hdrop : ∀ table name, s ≠ .dropIndex table name)
    (h : s.alter server t = some u) : s.alter server (t.thin keep) = some (u.thin keep) := by
  cases s with
  | createTable => cases h
  | dropTable => cases h
  | addColumn table d =>
    obtain ⟨hnew, hu⟩ := Option.ite_none_left_eq_some.mp h
    cases hu
    exact if_neg hnew
  | dropColumn table name =>
    obtain ⟨hcovers, h⟩ := Option.ite_none_left_eq_some.mp h
    have hthin := Table.covers_thin keep ((Bool.not_eq_true _).mp hcovers)
    rw [alter, if_neg (ne_true_of_eq_false hthin)]
    obtain ⟨columns, hc, rfl⟩ := Option.map_eq_some_iff.mp h
    exact Option.map_eq_some_iff.mpr ⟨columns, hc, rfl⟩
  | addPrimaryKey table k =>
    obtain ⟨hk, hu⟩ := Option.ite_none_right_eq_some.mp h
    cases hu
    exact if_pos hk
  | dropPrimaryKey table name =>
    by_cases hk : t.primaryKey.map Key.name = some name
    · rw [alter, if_pos hk] at h
      cases h
      exact if_pos hk
    · rw [alter, if_neg hk] at h
      obtain ⟨hserver, hu⟩ := Option.ite_none_left_eq_some.mp h
      cases hu
      exact (if_neg hk).trans (if_neg hserver)
  | addIndex table i => exact absurd rfl (hadd table i)
  | dropIndex table name => exact absurd rfl (hdrop table name)
  | addUnique table k =>
    obtain ⟨hk, hu⟩ := Option.ite_none_right_eq_some.mp h
    cases hu
    exact if_pos hk
  | dropUnique table name =>
    obtain ⟨uniques, hk, rfl⟩ := Option.map_eq_some_iff.mp h
    exact Option.map_eq_some_iff.mpr ⟨uniques, hk, rfl⟩

theorem apply_thin {s : Statement} {db after : Database}
    (hadd : ∀ table i, s ≠ .addIndex table i) (hdrop : ∀ table name, s ≠ .dropIndex table name)
    (h : s.apply .lenient db = some after) :
    s.apply .lenient (db.thin keep) = some (after.thin keep) := by
  obtain ⟨name, ds, rfl, hnew, hds, rfl⟩ | ⟨name, rfl, rfl⟩ |
    ⟨front, t, back, u, hts, hfront, ht, hu, rfl⟩ := apply_cases h
  · rw [apply, if_pos ⟨by rwa [Database.thin, Table.names_map_thin], hds⟩]
    simp [Database.thin, Table.thin, Table.created, Table.withConstraints]
  · have hname : ∀ t : Table, (t.thin keep).name = t.name := fun _ => rfl
    simp [apply, takeOut, Database.thin, List.filter_map, Function.comp_def, hname]
  · have hu' : s.alter .lenient (t.thin keep) = some (u.thin keep) := alter_thin hadd hdrop hu
    have hfront' : s.table ∉ (front.map (Table.thin keep)).map Table.name := by
      rwa [Table.names_map_thin]
    rw [Database.thin, hts, List.map_append, List.map_cons,
      apply_append (t := t.thin keep) hfront' ht hu' db]
    simp [Database.thin]

section Index

variable {server : Server} {db after : Database} {table : String}

theorem exists_of_apply_addIndex {i : Index} (h : (addIndex table i).apply server db = some after) :
    ∃ front t back, db.tables = front ++ t :: back ∧ table ∉ front.map Table.name ∧
      t.name = table ∧ t.hasColumns i.columns = true ∧
      after = { db with tables := front ++ { t with indices := t.indices ++ [i] } :: back } := by
  obtain ⟨_, _, he, -⟩ | ⟨_, he, -⟩ | ⟨front, t, back, u, hts, hfront, ht, hu, rfl⟩ := apply_cases h
  · cases he
  · cases he
  · obtain ⟨hcolumns, hu⟩ := Option.ite_none_right_eq_some.mp hu
    cases hu
    exact ⟨front, t, back, hts, hfront, ht, hcolumns, rfl⟩

/-- An index that is not kept need not be added. -/
theorem thin_of_apply_addIndex {i : Index} (hkeep : keep table i = false)
    (h : (addIndex table i).apply server db = some after) : after.thin keep = db.thin keep := by
  obtain ⟨front, t, back, hts, -, rfl, -, rfl⟩ := exists_of_apply_addIndex h
  simp [Database.thin, Table.thin, hts, hkeep]

theorem apply_addIndex_thin {i : Index} (hkeep : keep table i = true)
    (h : (addIndex table i).apply server db = some after) :
    (addIndex table i).apply server (db.thin keep) = some (after.thin keep) := by
  obtain ⟨front, t, back, hts, hfront, rfl, hcolumns, rfl⟩ := exists_of_apply_addIndex h
  have hu : (addIndex t.name i).alter server (t.thin keep) =
      some { t.thin keep with indices := (t.thin keep).indices ++ [i] } := if_pos hcolumns
  have hfront' : (addIndex t.name i).table ∉ (front.map (Table.thin keep)).map Table.name := by
    rwa [Table.names_map_thin]
  rw [Database.thin, hts, List.map_append, List.map_cons,
    apply_append (t := t.thin keep) hfront' rfl hu db]
  simp [Database.thin, Table.thin, hkeep]

/-- Where no other table has the name, it does not matter where the index is looked for. -/
theorem dropIndexNamed_thin {name : String} (hn : (db.tables.map Table.name).Nodup)
    (hother : ∀ u j, db.Holds u j → keep u j = true → j.name = name → u = table)
    (h : (dropIndex table name).apply .lenient db = some after) :
    (db.thin keep).dropIndexNamed name = after.thin keep := by
  obtain ⟨_, _, he, -⟩ | ⟨_, he, -⟩ | ⟨front, t, back, u, hts, hfront, ht, hu, rfl⟩ := apply_cases h
  · cases he
  · cases he
  · have hdrop : u = { t with indices := t.indices.filter (·.name ≠ name) } := by
      simpa [alter, takeOut, eq_comm] using hu
    have htable : (dropIndex table name).table = table := rfl
    rw [htable] at hfront ht
    have hback : table ∉ back.map Table.name := by
      rw [hts] at hn
      exact ht ▸ (notMem_map_of_nodup hn).2
    have hinFront : ∀ {x}, x ∈ front → x ∈ db.tables := by
      intro x hx
      rw [hts]
      exact List.mem_append_left _ hx
    have hinBack : ∀ {x}, x ∈ back → x ∈ db.tables := by
      intro x hx
      rw [hts]
      exact List.mem_append_right _ (List.mem_cons_of_mem _ hx)
    have hsame : ∀ ts : List Table, (∀ x ∈ ts, x ∈ db.tables) → table ∉ ts.map Table.name →
        (ts.map (Table.thin keep)).map (fun x =>
          { x with indices := x.indices.filter (·.name ≠ name) }) = ts.map (Table.thin keep) := by
      intro ts hmem hnot
      rw [List.map_map]
      refine List.map_congr_left fun x hx => ?_
      have hkept : (x.thin keep).indices.filter (·.name ≠ name) = (x.thin keep).indices := by
        refine List.filter_eq_self.mpr fun j hj => decide_eq_true fun hjn => ?_
        obtain ⟨hj, hk⟩ := List.mem_filter.mp hj
        exact hnot (hother x.name j ⟨x, hmem x hx, rfl, hj⟩ hk hjn ▸ List.mem_map_of_mem hx)
      rw [Function.comp_apply, hkept]
    simp only [Database.dropIndexNamed, Database.thin, hts, List.map_append, List.map_cons]
    rw [hsame front (fun _ => hinFront) hfront, hsame back (fun _ => hinBack) hback, hdrop]
    simp [Table.thin, List.filter_filter, Bool.and_comm]

end Index

end Statement

end Thin

end DeclarativeSql
