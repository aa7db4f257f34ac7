import DeclarativeSql.Migration.Statement
import DeclarativeSql.Proofs.Migration.Structure

/-!
# Application

What a statement does to a database. A server refuses to create what exists, to drop a column that
is still covered, and to constrain columns that are missing. A strict one also refuses to drop what
is missing.
-/
namespace DeclarativeSql

/-- How a server drops by name. -/
inductive Server
  /-- Exactly one thing must have the name. -/
  | strict
  /-- Whatever has the name is dropped. -/
  | lenient
  deriving DecidableEq

/-- Takes out what has a name. -/
def takeOut {α : Type} (server : Server) (key : α → String) (name : String) (xs : List α) :
    Option (List α) :=
  if server = .strict ∧ (xs.map key).count name ≠ 1 then none
  else some (xs.filter (key · ≠ name))

namespace Table

/-- A key, an index or a unique lists the column. -/
def covers (t : Table) (column : String) : Bool :=
  t.primaryKey.any (·.covers column) || t.indices.any (·.covers column) ||
    t.uniques.any (·.covers column)

def hasColumns (t : Table) (columns : List ColumnDef) : Bool :=
  columns.all fun d => d.name ∈ t.columnNames

end Table

namespace Statement

/-- What a statement about one table does to it. -/
def alter (server : Server) : Statement → Table → Option Table
  | createTable .., _ | dropTable _, _ => none
  | addColumn _ d, t =>
    if d.name ∈ t.columnNames then none
    else some { t with columns := t.columns ++ Table.bindAll t.id t.name [(d.name, d)] }
  | dropColumn _ name, t =>
    if t.covers name then none
    else (takeOut server Column.name name t.columns).map fun columns => { t with columns }
  | addPrimaryKey _ k, t =>
    if t.primaryKey.isNone && t.hasColumns k.columns then some { t with primaryKey := some k }
    else none
  | dropPrimaryKey _ name, t =>
    if t.primaryKey.map Key.name = some name then some { t with primaryKey := none }
    else if server = .strict then none
    else some t
  | addIndex _ i, t =>
    if t.hasColumns i.columns then some { t with indices := t.indices ++ [i] } else none
  | dropIndex _ name, t =>
    (takeOut server Index.name name t.indices).map fun indices => { t with indices }
  | addUnique _ k, t =>
    if t.hasColumns k.columns then some { t with uniques := t.uniques ++ [k] } else none
  | dropUnique _ name, t =>
    (takeOut server Key.name name t.uniques).map fun uniques => { t with uniques }

end Statement

/-- Changes the first table of a name. -/
def Table.alterFirst (name : String) (f : Table → Option Table) : List Table → Option (List Table)
  | [] => none
  | t :: rest =>
    if t.name = name then (f t).map (· :: rest) else (alterFirst name f rest).map (t :: ·)

/-- A table as it is created: without constraints. -/
def Table.created (name : String) (definitions : List ColumnDef) : Table :=
  .withConstraints ⟨0⟩ name definitions none [] []

namespace Statement

/-- One statement. -/
def apply (server : Server) : Statement → Database → Option Database
  | createTable name definitions, db =>
    if name ∉ db.tables.map Table.name ∧ (definitions.map ColumnDef.name).Nodup then
      some { db with tables := db.tables ++ [.created name definitions] }
    else none
  | dropTable name, db =>
    (takeOut server Table.name name db.tables).map fun tables => { db with tables }
  | s, db =>
    (Table.alterFirst s.table (s.alter server) db.tables).map fun tables => { db with tables }

def alterAll (server : Server) (ss : List Statement) (t : Table) : Option Table :=
  ss.foldlM (fun t s => s.alter server t) t

/-- One statement after the other, up to the first that is refused. -/
def run (server : Server) (ss : List Statement) (db : Database) : Option Database :=
  ss.foldlM (fun db s => s.apply server db) db

end Statement

section Stages

variable {σ ι α : Type} {step : σ → ι → Option σ}

/-- The state after each prefix of a stage leads to the state after the stage. -/
theorem foldlM_flatMap_of_state {f : α → List ι} {xs : List α} (state : List α → σ)
    (h : ∀ done x rest, xs = done ++ x :: rest →
      (f x).foldlM step (state done) = some (state (done ++ [x]))) :
    (xs.flatMap f).foldlM step (state []) = some (state xs) := by
  have hrest : ∀ rest done, xs = done ++ rest →
      (rest.flatMap f).foldlM step (state done) = some (state xs) := by
    intro rest
    induction rest with
    | nil =>
      intro done hd
      rw [hd, List.append_nil]
      rfl
    | cons x rest ih =>
      intro done hd
      rw [List.flatMap_cons, List.foldlM_append, h done x rest hd]
      exact ih (done ++ [x]) (by rw [hd, List.append_assoc]; rfl)
  exact hrest xs [] rfl

theorem foldlM_map_of_state {f : α → ι} {xs : List α} (state : List α → σ)
    (h : ∀ done x rest, xs = done ++ x :: rest →
      step (state done) (f x) = some (state (done ++ [x]))) :
    (xs.map f).foldlM step (state []) = some (state xs) := by
  rw [List.map_eq_flatMap]
  refine foldlM_flatMap_of_state state fun done x rest hd => ?_
  rw [List.foldlM_cons, h done x rest hd]
  rfl

section TakeOut

variable {server : Server} {key : α → String} {xs : List α}

theorem takeOut_filter (hn : server = .strict → (xs.map key).Nodup) {x : α} (hx : x ∈ xs)
    {names : List String} (hnames : server = .strict → key x ∉ names) :
    takeOut server key (key x) (xs.filter (key · ∉ names)) =
      some (xs.filter (key · ∉ names ++ [key x])) := by
  have hcount : ¬ (server = .strict ∧
      ((xs.filter (key · ∉ names)).map key).count (key x) ≠ 1) := by
    rintro ⟨hs, hc⟩
    exact hc (List.count_eq_one_of_mem ((hn hs).sublist (List.filter_sublist.map key))
      (List.mem_map_of_mem (List.mem_filter.mpr ⟨hx, by simpa using hnames hs⟩)))
  rw [takeOut, if_neg hcount, List.filter_filter]
  congr 2
  funext y
  simp [Bool.and_comm]

theorem filter_notMem_names (hn : (xs.map key).Nodup) (p : α → Bool) :
    xs.filter (key · ∉ (xs.filter p).map key) = xs.filter (!p ·) := by
  refine List.filter_congr fun x hx => ?_
  rw [Bool.eq_iff_iff]
  simp only [List.mem_map, List.mem_filter, decide_eq_true_eq, Bool.not_eq_true']
  constructor
  · intro h
    rw [← Bool.not_eq_true]
    exact fun hp => h ⟨x, ⟨hx, hp⟩, rfl⟩
  · rintro hp ⟨y, ⟨hy, hpy⟩, he⟩
    rw [List.inj_on_of_nodup_map hn hy hx he, hp] at hpy
    cases hpy

theorem foldlM_takeOut (hn : server = .strict → (xs.map key).Nodup) (p : α → Bool)
    (put : List α → σ) {f : α → ι}
    (h : ∀ x ∈ xs, p x = true → ∀ ys,
      step (put ys) (f x) = (takeOut server key (key x) ys).map put) :
    ((xs.filter p).map f).foldlM step (put xs) =
      some (put (xs.filter (key · ∉ (xs.filter p).map key))) := by
  have hstage : ((xs.filter p).map f).foldlM step (put (xs.filter (key · ∉ [].map key))) =
      some (put (xs.filter (key · ∉ (xs.filter p).map key))) := by
    refine foldlM_map_of_state (fun done => put (xs.filter (key · ∉ done.map key))) ?_
    intro done x rest hd
    have hmem : x ∈ xs.filter p := by simp [hd]
    have hnew : server = .strict → key x ∉ done.map key := fun hs => by
      have hnodup := (hn hs).sublist (List.filter_sublist (p := p) |>.map key)
      rw [hd] at hnodup
      exact (notMem_map_of_nodup hnodup).1
    obtain ⟨hx, hp⟩ := List.mem_filter.mp hmem
    rw [h x hx hp, takeOut_filter hn hx hnew, List.map_append]
    rfl
  simpa using hstage

end TakeOut

theorem foldlM_add {xs base : List α} (put : List α → σ) {f : α → ι}
    (h : ∀ x ∈ xs, ∀ ys, step (put ys) (f x) = some (put (ys ++ [x]))) :
    (xs.map f).foldlM step (put base) = some (put (base ++ xs)) := by
  have hstage : (xs.map f).foldlM step (put (base ++ [])) = some (put (base ++ xs)) := by
    refine foldlM_map_of_state (fun done => put (base ++ done)) fun done x rest hd => ?_
    rw [h x (by simp [hd]), List.append_assoc]
  rwa [List.append_nil] at hstage

end Stages

end DeclarativeSql
