import DeclarativeSql.Proofs.Schema.Contents
import DeclarativeSql.Proofs.Schema.Document
import DeclarativeSql.Proofs.Schema.Draft

/-!
# Which table owns a column

One counter numbers all tables: those that are declared, given with their constraints or loaded, and
copies of all of them. A column remembers the number of the table that it was made for, so it is
owned by that table alone, in whatever order the tables came about.
-/
namespace DeclarativeSql

namespace Table

/-- The columns were made for the table. -/
def OwnsColumns (t : Table) : Prop := ∀ c ∈ t.columns, c.table = t.id

theorem table_of_mem_bindAll {id : TableId} {name : String} {members : List (String × ColumnDef)}
    {c : Column} (h : c ∈ bindAll id name members) : c.table = id := by
  obtain ⟨_, -, rfl⟩ := List.mem_map.mp h
  rfl

theorem ownsColumns_aliased (t : Table) (id : TableId) : (t.aliased id).OwnsColumns :=
  fun _ hc => table_of_mem_bindAll hc

theorem ownsColumns_withConstraints (id : TableId) (name : String) (definitions : List ColumnDef)
    (primaryKey : Option Key) (indices : List Index) (uniques : List Key) :
    (withConstraints id name definitions primaryKey indices uniques).OwnsColumns :=
  fun _ hc => table_of_mem_bindAll hc

end Table

namespace Document

theorem bound_of_readTable {id : TableId} {v : Json} {t : Table} (h : readTable id v = .ok t) :
    t.id = id ∧ t.OwnsColumns := by
  obtain ⟨members, hid, hcolumns, -⟩ := exists_of_readTable h
  refine ⟨hid, fun c hc => ?_⟩
  rw [hcolumns] at hc
  rw [hid, Table.table_of_mem_bindAll hc]

theorem numbered_of_readTables {vs : List (Read Json)} {id : TableId} {ts : List Table}
    (h : readTables id vs = .ok ts) :
    ts.map (·.id.index) = List.range' id.index ts.length ∧ ∀ t ∈ ts, t.OwnsColumns := by
  induction vs generalizing id ts with
  | nil =>
    obtain rfl := Except.ok.inj h
    simp
  | cons v vs ih =>
    simp only [readTables, bind_eq_ok] at h
    obtain ⟨w, -, t, ht, rest, hrest, h⟩ := h
    obtain rfl := pure_eq_ok.mp h
    obtain ⟨hid, howns⟩ := bound_of_readTable ht
    obtain ⟨hids, hrest⟩ := ih hrest
    constructor
    · simp [hid, hids, List.range'_succ]
    · exact List.forall_mem_cons.mpr ⟨howns, hrest⟩

end Document

/-- All tables that there are, those that are being declared, and the copies among them: where the
original stands and where the copy does. -/
structure Instances where
  next : TableId
  drafts : List TableDraft
  tables : List Table
  copies : List (Nat × Nat)

/-- What a run does next. -/
inductive Creation
  /-- Starts a declaration, with whatever is registered by then. -/
  | enter (registry : Registry) (name : String)
  | declare (draft : Nat) (step : DeclareStep)
  | finish (draft : Nat)
  | make (name : String) (definitions : List ColumnDef) (primaryKey : Option Key)
      (indices : List Index) (uniques : List Key)
  /-- Loads all tables of a file. A file that is refused may have used up some numbers. -/
  | load (content : Option String) (spent : Nat)
  | copy (original : Nat)

namespace Instances

def start (first : TableId) : Instances := ⟨first, [], [], []⟩

/-- Takes in tables that are numbered from the counter on. -/
def add (s : Instances) (ts : List Table) : Instances :=
  { s with next := ⟨s.next.index + ts.length⟩, tables := s.tables ++ ts }

/-- A draft or table that is not there is left alone. -/
def step (s : Instances) : Creation → Instances
  | .enter registry name =>
    { s with next := ⟨s.next.index + 1⟩, drafts := s.drafts ++ [⟨registry, s.next, name, []⟩] }
  | .declare i step =>
    match s.drafts[i]? with
    | none => s
    | some draft => { s with drafts := s.drafts.set i (draft.step step).2 }
  | .finish i =>
    match s.drafts[i]? with
    | none => s
    | some draft =>
      { s with drafts := s.drafts.eraseIdx i, tables := s.tables ++ [draft.finish] }
  | .make name definitions primaryKey indices uniques =>
    s.add [.withConstraints s.next name definitions primaryKey indices uniques]
  | .load content spent =>
    match SchemaFile.load s.next content with
    | .error _ => { s with next := ⟨s.next.index + spent⟩ }
    | .ok db => s.add db.tables
  | .copy i =>
    match s.tables[i]? with
    | none => s
    | some t => { s.add [t.aliased s.next] with copies := s.copies ++ [(i, s.tables.length)] }

def run (s : Instances) (history : List Creation) : Instances := history.foldl step s

theorem run_append (s : Instances) (history more : List Creation) :
    s.run (history ++ more) = (s.run history).run more := List.foldl_append

/-- The numbers that are taken. -/
def ids (s : Instances) : List Nat :=
  s.drafts.map (·.id.index) ++ s.tables.map (·.id.index)

/-- No number is taken twice, columns have the number of their table, and a copy says what its
original does. -/
structure IsSound (s : Instances) : Prop where
  nodup : s.ids.Nodup
  below : ∀ n ∈ s.ids, n < s.next.index
  drafts : ∀ d ∈ s.drafts, ∀ c ∈ d.columns, c.table = d.id
  tables : ∀ t ∈ s.tables, t.OwnsColumns
  copies : ∀ p ∈ s.copies, ∃ t u, s.tables[p.1]? = some t ∧ s.tables[p.2]? = some u ∧
    u.content = t.content

theorem isSound_start (first : TableId) : (start first).IsSound := by
  constructor <;> simp [start, ids]

section

variable {s : Instances}

theorem IsSound.copies_append (h : s.IsSound) (ts : List Table) :
    ∀ p ∈ s.copies, ∃ t u, (s.tables ++ ts)[p.1]? = some t ∧ (s.tables ++ ts)[p.2]? = some u ∧
      u.content = t.content := by
  have hkept : ∀ (i : Nat) (v : Table), s.tables[i]? = some v → (s.tables ++ ts)[i]? = some v := by
    intro i v hv
    exact (List.getElem?_append_left (List.getElem?_eq_some_iff.mp hv).1).trans hv
  intro p hp
  obtain ⟨t, u, ht, hu, hcontent⟩ := h.copies p hp
  exact ⟨t, u, hkept _ t ht, hkept _ u hu, hcontent⟩

/-- New tables change nothing about the tables that there are. -/
theorem IsSound.add (h : s.IsSound) {ts : List Table}
    (hids : ts.map (·.id.index) = List.range' s.next.index ts.length)
    (howns : ∀ t ∈ ts, t.OwnsColumns) : (s.add ts).IsSound := by
  have hall : (s.add ts).ids = s.ids ++ List.range' s.next.index ts.length := by
    rw [ids, Instances.add, List.map_append, hids, ← List.append_assoc]
    rfl
  constructor
  · rw [hall]
    apply h.nodup.append (List.nodup_range' ..)
    intro n hold hnew
    have hbelow := h.below n hold
    have habove := (List.mem_range'_1.mp hnew).1
    omega
  · intro n hn
    rw [hall] at hn
    change n < s.next.index + ts.length
    rcases List.mem_append.mp hn with hold | hnew
    · have hbelow := h.below n hold
      omega
    · exact (List.mem_range'_1.mp hnew).2
  · exact h.drafts
  · intro t ht
    rcases List.mem_append.mp ht with hold | hnew
    · exact h.tables t hold
    · exact howns t hnew
  · exact h.copies_append ts

theorem IsSound.enter (h : s.IsSound) (registry : Registry) (name : String) :
    (s.step (.enter registry name)).IsSound := by
  have hperm : (s.step (.enter registry name)).ids.Perm (s.next.index :: s.ids) := by
    simp only [ids, step, List.map_append, List.map_singleton, List.append_assoc,
      List.singleton_append]
    exact List.perm_middle
  constructor
  · rw [hperm.nodup_iff, List.nodup_cons]
    exact ⟨fun hmem => absurd (h.below _ hmem) (Nat.lt_irrefl _), h.nodup⟩
  · intro n hn
    change n < s.next.index + 1
    rcases List.mem_cons.mp (hperm.mem_iff.mp hn) with rfl | hold
    · omega
    · have hbelow := h.below n hold
      omega
  · intro d hd
    rcases List.mem_append.mp hd with hold | hnew
    · exact h.drafts d hold
    · rw [List.mem_singleton.mp hnew]
      simp
  · exact h.tables
  · exact h.copies

theorem IsSound.declare (h : s.IsSound) (i : Nat) (d : DeclareStep) :
    (s.step (.declare i d)).IsSound := by
  simp only [Instances.step]
  split
  next => exact h
  next draft hdraft =>
    have hids : ids { s with drafts := s.drafts.set i (draft.step d).2 } = s.ids := by
      obtain ⟨hi, rfl⟩ := List.getElem?_eq_some_iff.mp hdraft
      have hlength : i < (s.drafts.map (·.id.index)).length := by rwa [List.length_map]
      have hset := List.set_getElem_self hlength
      rw [List.getElem_map] at hset
      rw [ids, List.map_set, TableDraft.id_step, hset, ids]
    constructor
    · exact hids ▸ h.nodup
    · exact hids ▸ h.below
    · intro o ho c hc
      rcases List.mem_or_eq_of_mem_set ho with hold | rfl
      · exact h.drafts o hold c hc
      · have howned := h.drafts draft (List.mem_of_getElem? hdraft)
        rw [TableDraft.id_step]
        rcases draft.columns_step d with hsame | ⟨member, definition, -, hadded⟩
        · exact howned c (hsame ▸ hc)
        · rw [hadded] at hc
          rcases List.mem_append.mp hc with hc | hc
          · exact howned c hc
          · rw [List.mem_singleton.mp hc]
            rfl
    · exact h.tables
    · exact h.copies

/-- A finished draft keeps its number. -/
theorem IsSound.finish (h : s.IsSound) (i : Nat) : (s.step (.finish i)).IsSound := by
  simp only [Instances.step]
  split
  next => exact h
  next draft hdraft =>
    have hperm : (draft :: s.drafts.eraseIdx i).Perm s.drafts := by
      obtain ⟨hi, rfl⟩ := List.getElem?_eq_some_iff.mp hdraft
      exact List.getElem_cons_eraseIdx_perm hi
    have hids : (ids { s with
        drafts := s.drafts.eraseIdx i, tables := s.tables ++ [draft.finish] }).Perm s.ids := by
      have hmap := hperm.map (·.id.index)
      simp only [ids, List.map_append, List.map_singleton, ← List.append_assoc]
      exact (List.perm_append_singleton _ _).trans (hmap.append_right _)
    constructor
    · exact hids.nodup_iff.mpr h.nodup
    · exact fun n hn => h.below n (hids.mem_iff.mp hn)
    · exact fun d hd => h.drafts d (hperm.subset (List.mem_cons_of_mem _ hd))
    · intro t ht
      rcases List.mem_append.mp ht with hold | hnew
      · exact h.tables t hold
      · rw [List.mem_singleton.mp hnew]
        exact h.drafts draft (List.mem_of_getElem? hdraft)
    · exact h.copies_append _

theorem IsSound.load (h : s.IsSound) (content : Option String) (spent : Nat) :
    (s.step (.load content spent)).IsSound := by
  simp only [Instances.step]
  split
  next =>
    refine ⟨h.nodup, fun n hn => ?_, h.drafts, h.tables, h.copies⟩
    have hbelow := h.below n hn
    change n < s.next.index + spent
    omega
  next db hload =>
    obtain ⟨vs, hvs⟩ := SchemaFile.exists_readTables_of_load hload
    obtain ⟨hids, howns⟩ := Document.numbered_of_readTables hvs
    exact h.add hids howns

/-- A copy is made for nothing but itself. -/
theorem IsSound.copy (h : s.IsSound) (i : Nat) : (s.step (.copy i)).IsSound := by
  simp only [Instances.step]
  split
  next => exact h
  next t ht =>
    have howns : ∀ u ∈ [t.aliased s.next], u.OwnsColumns := by
      simpa using t.ownsColumns_aliased s.next
    have hadd := h.add rfl howns
    refine ⟨hadd.nodup, hadd.below, hadd.drafts, hadd.tables, fun p hp => ?_⟩
    rcases List.mem_append.mp hp with hold | hnew
    · exact hadd.copies p hold
    · rw [List.mem_singleton.mp hnew]
      have hi := (List.getElem?_eq_some_iff.mp ht).1
      exact ⟨t, _, (List.getElem?_append_left hi).trans ht, List.getElem?_concat_length,
        Table.content_aliased t s.next⟩

theorem IsSound.step (h : s.IsSound) (c : Creation) : (s.step c).IsSound := by
  cases c with
  | enter registry name => exact h.enter registry name
  | declare i d => exact h.declare i d
  | finish i => exact h.finish i
  | make name definitions primaryKey indices uniques =>
    apply h.add rfl
    simp [Table.ownsColumns_withConstraints]
  | load content spent => exact h.load content spent
  | copy i => exact h.copy i

theorem IsSound.run (h : s.IsSound) (history : List Creation) : (s.run history).IsSound := by
  induction history generalizing s with
  | nil => exact h
  | cons c history ih => exact ih (h.step c)

theorem IsSound.id_inj (h : s.IsSound) {i j : Nat} {t u : Table} (ht : s.tables[i]? = some t)
    (hu : s.tables[j]? = some u) : t.id = u.id ↔ i = j := by
  have hnodup : (s.tables.map (·.id.index)).Nodup := h.nodup.of_append_right
  obtain ⟨hi, rfl⟩ := List.getElem?_eq_some_iff.mp ht
  obtain ⟨hj, rfl⟩ := List.getElem?_eq_some_iff.mp hu
  have hi' : i < (s.tables.map (·.id.index)).length := by rwa [List.length_map]
  have hj' : j < (s.tables.map (·.id.index)).length := by rwa [List.length_map]
  have hinj : (s.tables.map (·.id.index))[i] = (s.tables.map (·.id.index))[j] ↔ i = j :=
    hnodup.getElem_inj_iff
  rwa [List.getElem_map, List.getElem_map, ← TableId.mk.injEq] at hinj

theorem IsSound.owns_iff (h : s.IsSound) {i j : Nat} {t u : Table} (ht : s.tables[i]? = some t)
    (hu : s.tables[j]? = some u) {c : Column} (hc : c ∈ t.columns) : u.owns c = true ↔ i = j := by
  rw [Table.owns, beq_iff_eq, h.tables t (List.mem_of_getElem? ht) c hc, h.id_inj ht hu]

end

/-- A column is owned by the table that has it, and by no other one. A copy says what its original
does, member by member, and shares no column with another table. -/
structure OwnsApart (s : Instances) : Prop where
  owns : ∀ (i j : Nat) (t u : Table), s.tables[i]? = some t → s.tables[j]? = some u →
    ∀ c ∈ t.columns, (u.owns c = true ↔ i = j)
  copies : ∀ p ∈ s.copies, ∃ t u, s.tables[p.1]? = some t ∧ s.tables[p.2]? = some u ∧
    u.content = t.content ∧ ∀ (k : Nat) (v : Table), s.tables[k]? = some v → k ≠ p.2 →
      ∀ c ∈ u.columns, c ∉ v.columns

/-- This is so whatever a run does. -/
theorem ownsApart_run (first : TableId) (history : List Creation) :
    ((start first).run history).OwnsApart := by
  have h := (isSound_start first).run history
  constructor
  · intro i j t u ht hu c hc
    exact h.owns_iff ht hu hc
  · intro p hp
    obtain ⟨t, u, ht, hu, hcontent⟩ := h.copies p hp
    refine ⟨t, u, ht, hu, hcontent, fun k v hv hne c hc hmem => ?_⟩
    -- a shared column would be owned by both tables
    have hself : v.owns c = true := (h.owns_iff hv hv hmem).mpr rfl
    exact hne ((h.owns_iff hu hv hc).mp hself).symm

end Instances

namespace SchemaBuilder

/-- A builder starts a draft, declares its members and finishes it. -/
def history (b : SchemaBuilder) (draft : Nat) (table : String) (steps : List DeclareStep) :
    List Creation :=
  Creation.enter b.registry table :: steps.map (.declare draft) ++ [.finish draft]

theorem run_declare_steps (s : Instances) (draft : TableDraft) (steps : List DeclareStep) :
    Instances.run { s with drafts := s.drafts ++ [draft] }
        (steps.map (.declare s.drafts.length)) =
      { s with drafts := s.drafts ++ [draft.attempt steps] } := by
  induction steps generalizing draft with
  | nil => rfl
  | cons d steps ih =>
    rw [List.map_cons, Instances.run, List.foldl_cons]
    have hstep : Instances.step { s with drafts := s.drafts ++ [draft] }
        (.declare s.drafts.length d) = { s with drafts := s.drafts ++ [(draft.step d).2] } := by
      simp [Instances.step]
    rw [hstep]
    exact ih _

/-- The table that a builder takes in is the one that the run creates. -/
theorem run_history {b : SchemaBuilder} {table : String} {draft : TableDraft}
    (h : b.enter table = .ok draft) (steps : List DeclareStep) {s : Instances}
    (hs : s.next = b.next) : s.run (b.history s.drafts.length table steps) =
      { s with
        next := (b.leave (draft.attempt steps)).next
        tables := s.tables ++ [(draft.attempt steps).finish] } := by
  obtain ⟨-, rfl⟩ := enter_eq_ok_iff.mp h
  have hentered : s.step (.enter b.registry table) =
      { s with
        next := ⟨b.next.index + 1⟩
        drafts := s.drafts ++ [⟨b.registry, b.next, table, []⟩] } := by
    rw [← hs]
    rfl
  have hdeclared := run_declare_steps { s with next := ⟨b.next.index + 1⟩ }
    ⟨b.registry, b.next, table, []⟩ steps
  simp only [Instances.run] at hdeclared
  rw [history, List.cons_append, Instances.run, List.foldl_cons, List.foldl_append, hentered,
    hdeclared]
  simp [Instances.step, leave, List.eraseIdx_append_of_length_le]

/-- The tables of a builder are those of a run. -/
theorem IsBuilt.exists_run {b : SchemaBuilder} (h : b.IsBuilt) : ∃ first history,
    (Instances.start first).run history = ⟨b.next, [], b.tables, []⟩ := by
  induction h with
  | new name first => exact ⟨first, [], rfl⟩
  | define _ _ _ _ ih => exact ih
  | @declare b table draft steps _ henter ih =>
    obtain ⟨first, history, hrun⟩ := ih
    refine ⟨first, history ++ b.history 0 table steps, ?_⟩
    rw [Instances.run_append, hrun]
    exact run_history henter steps rfl

theorem IsBuilt.owns_iff {b : SchemaBuilder} (h : b.IsBuilt) {i j : Nat} {t u : Table}
    (ht : b.build.tables[i]? = some t) (hu : b.build.tables[j]? = some u) {c : Column}
    (hc : c ∈ t.columns) : u.owns c = true ↔ i = j := by
  obtain ⟨first, history, hrun⟩ := h.exists_run
  have hsound := (Instances.isSound_start first).run history
  rw [hrun] at hsound
  exact hsound.owns_iff ht hu hc

end SchemaBuilder

namespace Memberships

/-- Two declarations at once, tables given and loaded in between, and copies of both kinds. -/
def mixedHistory : List Creation :=
  [.enter .empty "users", .enter .empty "posts",
    .declare 0 (.column "Id" "id" (.scalar .int64) .primaryKey),
    .declare 1 (.column "Id" "id" (.scalar .int64) .primaryKey),
    .finish 1, .copy 0, .load none 3, .make "tags" [⟨"tag", .scalar .text, .empty⟩] none [] [],
    .load (some (SchemaFile.render ⟨"app", [.ofColumns ⟨0⟩ "notes" []]⟩)) 0,
    .finish 0, .copy 1]

theorem mixed_tables_own :
    (((Instances.start ⟨5⟩).run mixedHistory).tables.map (·.id.index) = [6, 7, 11, 12, 5, 13] ∧
      ((Instances.start ⟨5⟩).run mixedHistory).copies = [(0, 1), (1, 5)]) ∧
      ((Instances.start ⟨5⟩).run mixedHistory).OwnsApart :=
  ⟨by decide +kernel, Instances.ownsApart_run ⟨5⟩ mixedHistory⟩

end Memberships

end DeclarativeSql
