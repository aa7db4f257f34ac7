import DeclarativeSql.Proofs.Migration.Application

/-!
# Changes of one table

The statements for a changed table are carried out stage by stage: constraints go before the columns
they cover, and columns come before the constraints over them.
-/
namespace DeclarativeSql

namespace Table

/-- Every constraint lists columns of the table only. -/
def ListsOwnColumns (t : Table) : Prop :=
  (∀ k ∈ t.primaryKey, ∀ d ∈ k.columns, d ∈ t.definitions) ∧
    (∀ i ∈ t.indices, ∀ d ∈ i.columns, d ∈ t.definitions) ∧
    (∀ k ∈ t.uniques, ∀ d ∈ k.columns, d ∈ t.definitions)

/-- Names tell the indices apart, and if the server is strict the uniques too. -/
structure IsNamedFor (server : Server) (t : Table) : Prop where
  indices : (t.indices.map Index.name).Nodup
  uniques : server = .strict → (t.uniques.map Key.name).Nodup

/-- No unique that stays has the name of one that is dropped. -/
def KeepsUniques (current target : Table) : Prop :=
  ∀ k ∈ current.uniques, Key.isDropped current target k = false →
    k.name ∉ (uniquesNotIn current target).map Key.name

/-- The uniques whose names are not dropped. -/
def uniquesLeft (current target : Table) : List Key :=
  current.uniques.filter (·.name ∉ (uniquesNotIn current target).map Key.name)

/-- What the statements for a changed table make of it. -/
def migrated (current target : Table) : Table :=
  { current with
    columns := current.columns.filter (fun c => !target.lacks c.definition) ++
      bindAll current.id current.name ((columnsNotIn target current).map fun d => (d.name, d))
    primaryKey :=
      if primaryKeyChanged current target then target.primaryKey else current.primaryKey
    indices := current.indices.filter (!Index.isDropped current target ·) ++
      indicesNotIn target current
    uniques := current.uniquesLeft target ++ uniquesNotIn target current }

/-- The table once the key is dropped. The definitions that follow add what comes after it, in the
order of the statements. -/
def keyDropped (current target : Table) : Table :=
  { current with
    primaryKey := if primaryKeyChanged current target then none else current.primaryKey }

def indicesDropped (current target : Table) : Table :=
  { current.keyDropped target with
    indices := current.indices.filter (!Index.isDropped current target ·) }

def uniquesDropped (current target : Table) : Table :=
  { current.indicesDropped target with uniques := current.uniquesLeft target }

def columnsDropped (current target : Table) : Table :=
  { current.uniquesDropped target with
    columns := current.columns.filter (fun c => !target.lacks c.definition) }

def columnsAdded (current target : Table) : Table :=
  { current.columnsDropped target with
    columns := (current.columnsDropped target).columns ++
      bindAll current.id current.name ((columnsNotIn target current).map fun d => (d.name, d)) }

def keyAdded (current target : Table) : Table :=
  { current.columnsAdded target with
    primaryKey :=
      if primaryKeyChanged current target then target.primaryKey else current.primaryKey }

def indicesAdded (current target : Table) : Table :=
  { current.keyAdded target with
    indices := (current.keyAdded target).indices ++ indicesNotIn target current }

theorem migrated_eq (current target : Table) : current.migrated target =
    { current.indicesAdded target with
      uniques := (current.indicesAdded target).uniques ++ uniquesNotIn target current } := by
  simp only [migrated, indicesAdded, keyAdded, columnsAdded, columnsDropped, uniquesDropped,
    indicesDropped, keyDropped]

/-- They are among those that stay. -/
theorem uniquesLeft_eq_filter (current target : Table) :
    current.uniquesLeft target = (current.uniques.filter (!Key.isDropped current target ·)).filter
      (·.name ∉ (uniquesNotIn current target).map Key.name) := by
  rw [List.filter_filter]
  refine List.filter_congr fun k hk => ?_
  cases hd : Key.isDropped current target k with
  | false => simp
  | true =>
    have hmem : k ∈ uniquesNotIn current target := List.mem_filter.mpr ⟨hk, hd⟩
    simpa using List.mem_map_of_mem hmem

theorem uniquesLeft_eq_iff {current target : Table} :
    current.uniquesLeft target = current.uniques.filter (!Key.isDropped current target ·) ↔
      current.KeepsUniques target := by
  rw [uniquesLeft_eq_filter, List.filter_eq_self]
  simp [KeepsUniques]

theorem KeepsUniques.of_nodup {current target : Table} (h : (current.uniques.map Key.name).Nodup) :
    current.KeepsUniques target :=
  uniquesLeft_eq_iff.mp (filter_notMem_names h _)

end Table

namespace Statement

variable {server : Server}

theorem alterAll_append {ss us : List Statement} {t u v : Table}
    (hs : alterAll server ss t = some u) (hu : alterAll server us u = some v) :
    alterAll server (ss ++ us) t = some v := by
  unfold alterAll at hs
  rw [alterAll, List.foldlM_append, hs]
  exact hu

theorem name_of_alter {s : Statement} {t u : Table} (h : s.alter server t = some u) :
    u.name = t.name := by
  unfold alter at h
  split at h
  all_goals grind [Option.map_eq_some_iff]

section Stages

variable {t : Table} (name : String)

theorem alterAll_dropPrimaryKey (p : Bool) :
    alterAll server ((if p then t.primaryKey else none).toList.map fun k =>
        .dropPrimaryKey name k.name) t =
      some { t with primaryKey := if p then none else t.primaryKey } := by
  cases p with
  | false => rfl
  | true =>
    cases hk : t.primaryKey with
    | none =>
      simp only [if_true, Option.toList_none, List.map_nil]
      rw [← hk]
      rfl
    | some k => simp [alterAll, alter, hk]

theorem alterAll_dropIndices (hn : (t.indices.map Index.name).Nodup) (p : Index → Bool) :
    alterAll server ((t.indices.filter p).map fun i => .dropIndex name i.name) t =
      some { t with indices := t.indices.filter (!p ·) } := by
  rw [← filter_notMem_names hn p]
  refine foldlM_takeOut (fun _ : server = .strict => hn) p (fun indices => { t with indices }) ?_
  intro i _ _ indices
  rfl

theorem alterAll_dropUniques (hn : server = .strict → (t.uniques.map Key.name).Nodup)
    (p : Key → Bool) :
    alterAll server ((t.uniques.filter p).map fun k => .dropUnique name k.name) t =
      some { t with uniques := t.uniques.filter (·.name ∉ (t.uniques.filter p).map Key.name) } := by
  refine foldlM_takeOut hn p (fun uniques => { t with uniques }) ?_
  intro k _ _ uniques
  rfl

theorem alterAll_dropColumns (hn : t.columnNames.Nodup) (p : ColumnDef → Bool)
    (hcovers : ∀ d ∈ t.definitions, p d = true → t.covers d.name = false) :
    alterAll server ((t.definitions.filter p).map fun d => .dropColumn name d.name) t =
      some { t with columns := t.columns.filter (!p ·.definition) } := by
  rw [← Table.columns_map_name] at hn
  rw [Table.definitions, List.filter_map, List.map_map, ← filter_notMem_names hn]
  refine foldlM_takeOut (fun _ : server = .strict => hn) (p ·.definition)
    (fun columns => { t with columns }) ?_
  intro c hc hp columns
  have hcovers : t.covers c.name = false := hcovers c.definition (List.mem_map_of_mem hc) hp
  exact if_neg (ne_true_of_eq_false hcovers)

theorem alterAll_addColumns {ds : List ColumnDef} (hn : (ds.map ColumnDef.name).Nodup)
    (hnew : ∀ d ∈ ds, d.name ∉ t.columnNames) :
    alterAll server (ds.map (.addColumn name)) t =
      some { t with columns :=
        t.columns ++ Table.bindAll t.id t.name (ds.map fun d => (d.name, d)) } := by
  let state (done : List ColumnDef) : Table :=
    { t with columns := t.columns ++ Table.bindAll t.id t.name (done.map fun d => (d.name, d)) }
  have hstage : (ds.map (.addColumn name)).foldlM (fun t s => alter server s t) (state []) =
      some (state ds) := by
    refine foldlM_map_of_state state fun done d rest hd => ?_
    have hold : d.name ∉ t.columnNames := hnew d (by simp [hd])
    have hadded : d.name ∉ done.map ColumnDef.name := by
      rw [hd] at hn
      exact (notMem_map_of_nodup hn).1
    have hnames : (state done).columnNames = t.columnNames ++ done.map ColumnDef.name := by
      simp [state, Table.columnNames, Table.definitions, Table.bindAll, Function.comp_def]
    rw [alter, hnames, if_neg (by simp [hold, hadded])]
    simp [state, Table.bindAll]
  simpa [alterAll, state, Table.bindAll] using hstage

theorem alterAll_addPrimaryKey {key : Option Key} (hk : key.isSome → t.primaryKey = none)
    (hcolumns : ∀ k ∈ key, t.hasColumns k.columns = true) :
    alterAll server (key.toList.map (.addPrimaryKey name)) t =
      some { t with primaryKey := key.or t.primaryKey } := by
  cases key with
  | none => rfl
  | some k => simp [alterAll, alter, hk rfl, hcolumns k rfl]

theorem alterAll_replacePrimaryKey {own key : Option Key} {p : Bool}
    (hown : t.primaryKey = if p then none else own)
    (hcolumns : ∀ k ∈ key, t.hasColumns k.columns = true) :
    alterAll server ((if p then key else none).toList.map (.addPrimaryKey name)) t =
      some { t with primaryKey := if p then key else own } := by
  cases p with
  | false =>
    obtain rfl : own = t.primaryKey := hown.symm
    rfl
  | true =>
    have hadd : alterAll server (key.toList.map (.addPrimaryKey name)) t =
        some { t with primaryKey := key.or t.primaryKey } :=
      alterAll_addPrimaryKey name (fun _ => hown) hcolumns
    rwa [hown, if_pos rfl, Option.or_none] at hadd

theorem alterAll_addIndices {is : List Index}
    (hcolumns : ∀ i ∈ is, t.hasColumns i.columns = true) :
    alterAll server (is.map (.addIndex name)) t = some { t with indices := t.indices ++ is } := by
  unfold alterAll
  refine foldlM_add (fun indices => { t with indices }) ?_
  intro i hi indices
  exact if_pos (hcolumns i hi)

theorem alterAll_addUniques {ks : List Key} (hcolumns : ∀ k ∈ ks, t.hasColumns k.columns = true) :
    alterAll server (ks.map (.addUnique name)) t = some { t with uniques := t.uniques ++ ks } := by
  unfold alterAll
  refine foldlM_add (fun uniques => { t with uniques }) ?_
  intro k hk uniques
  exact if_pos (hcolumns k hk)

end Stages

end Statement

section Migrated

variable {current target : Table}

theorem Table.definitions_migrated (current target : Table) :
    (current.migrated target).definitions =
      current.definitions.filter (!target.lacks ·) ++ columnsNotIn target current := by
  simp [migrated, definitions, bindAll, List.filter_map, Function.comp_def]

theorem Table.columnNames_migrated_perm (hc : current.columnNames.Nodup)
    (ht : target.columnNames.Nodup) :
    (current.migrated target).columnNames.Perm target.columnNames := by
  have h := (kept_append_columnsNotIn_perm hc ht).map Prod.fst
  rwa [← definitions_migrated, List.map_map, List.map_map] at h

/-- What is added is new to the columns that are left. -/
theorem Table.name_notMem_columnsDropped (hc : current.columnNames.Nodup)
    (ht : target.columnNames.Nodup) :
    ∀ d ∈ columnsNotIn target current, d.name ∉ (current.columnsDropped target).columnNames := by
  have hsplit : (current.migrated target).columnNames =
      (current.columnsDropped target).columnNames ++
        (columnsNotIn target current).map ColumnDef.name := by
    simp [migrated, columnsDropped, columnNames, definitions, bindAll, Function.comp_def]
  have hnodup := (columnNames_migrated_perm hc ht).nodup_iff.mpr ht
  rw [hsplit] at hnodup
  exact fun d hd hn => (List.nodup_append.mp hnodup).2.2 _ hn _ (List.mem_map_of_mem hd) rfl

theorem Table.indices_migrated_perm (hc : current.IsUnambiguous) (ht : target.IsUnambiguous) :
    ((current.migrated target).indices.map Index.signature).Perm
      (target.indices.map Index.signature) :=
  kept_append_unmatched_perm (fun _ _ => Index.signatureOf_eq) current target hc.indices ht.indices

/-- The uniques are those of the target only if every unique that should stay is left. -/
theorem Table.uniques_migrated_perm_iff (hc : current.IsUnambiguous) (ht : target.IsUnambiguous) :
    ((current.migrated target).uniques.map Key.signature).Perm (target.uniques.map Key.signature) ↔
      current.KeepsUniques target := by
  have hperm : ((current.uniques.filter (!Key.isDropped current target ·) ++
      uniquesNotIn target current).map Key.signature).Perm (target.uniques.map Key.signature) :=
    kept_append_unmatched_perm (fun _ _ h => h) current target hc.uniques ht.uniques
  rw [← uniquesLeft_eq_iff, migrated]
  constructor
  · -- what is left is part of what should be, so it is enough to count both
    intro h
    have hlength := (h.trans hperm.symm).length_eq
    simp only [List.length_map, List.length_append, Nat.add_right_cancel_iff] at hlength
    rw [uniquesLeft_eq_filter] at hlength ⊢
    exact List.filter_sublist.eq_of_length hlength
  · intro h
    rwa [h]

theorem Table.migrated_agrees (hc : current.IsUnambiguous) (ht : target.IsUnambiguous)
    (hkeeps : current.KeepsUniques target) :
    (current.migrated target).Agrees target where
  columns := by
    rw [definitions_migrated]
    exact kept_append_columnsNotIn_perm hc.columns ht.columns
  primaryKey := by
    unfold primaryKeySignature migrated
    cases hk : primaryKeyChanged current target with
    | false => exact (primaryKeyChanged_eq_false_iff.mp hk).1
    | true => rfl
  indices := indices_migrated_perm hc ht
  uniques := (uniques_migrated_perm_iff hc ht).mpr hkeeps

theorem coversName_eq_false_of_kept (hc : current.columnNames.Nodup) {d : ColumnDef}
    (hd : d ∈ current.definitions) (hl : target.lacks d = true) {xs ys : List ColumnDef}
    (hsig : signatureOf xs = signatureOf ys) (hown : ∀ o ∈ ys, o ∈ target.definitions)
    (hkept : coversReplaced current target xs = false) : coversName xs d.name = false := by
  rw [← Bool.not_eq_true]
  intro hcovers
  obtain ⟨x, hx, hn⟩ := coversName_iff.mp hcovers
  have hname : d.name ∈ ys.map ColumnDef.name := by
    rw [← names_eq_of_signatureOf hsig, ← hn]
    exact List.mem_map_of_mem hx
  obtain ⟨o, ho, hon⟩ := List.mem_map.mp hname
  have htarget : d.name ∈ target.columnNames := hon ▸ List.mem_map_of_mem (hown o ho)
  have hreplaced := isReplaced_of_lacks hc hd hl htarget
  rw [coversReplaced, List.any_eq_false] at hkept
  exact hkept x hx (hn ▸ hreplaced)

theorem Table.covers_eq_false_of_kept (hc : current.columnNames.Nodup)
    (hown : target.ListsOwnColumns) {d : ColumnDef} (hd : d ∈ current.definitions)
    (hl : target.lacks d = true) : (current.uniquesDropped target).covers d.name = false := by
  obtain ⟨hownKey, hownIndices, hownUniques⟩ := hown
  simp only [covers, uniquesDropped, indicesDropped, keyDropped, Bool.or_eq_false_iff,
    List.any_eq_false, List.mem_filter, Bool.not_eq_true', Bool.not_eq_true]
  refine ⟨⟨?_, ?_⟩, ?_⟩
  · cases hk : primaryKeyChanged current target with
    | true => rfl
    | false =>
      obtain ⟨hsig, hkept⟩ := primaryKeyChanged_eq_false_iff.mp hk
      cases hck : current.primaryKey with
      | none => rfl
      | some k =>
        rw [primaryKeySignature, primaryKeySignature, hck, Option.map_some, eq_comm,
          Option.map_eq_some_iff] at hsig
        obtain ⟨o, ho, hsig⟩ := hsig
        exact coversName_eq_false_of_kept hc hd hl hsig.symm (hownKey o ho) (hkept k hck)
  · rintro i ⟨-, hi⟩
    obtain ⟨hsig, hkept⟩ := isUnmatched_eq_false_iff.mp hi
    obtain ⟨o, ho, hsig⟩ := List.mem_map.mp hsig
    exact coversName_eq_false_of_kept hc hd hl (Index.signatureOf_eq hsig.symm)
      (hownIndices o ho) hkept
  · intro k hk
    have hk : Key.isDropped current target k = false := by
      rw [uniquesLeft_eq_filter] at hk
      simpa using (List.mem_filter.mp (List.mem_of_mem_filter hk)).2
    obtain ⟨hsig, hkept⟩ := isUnmatched_eq_false_iff.mp hk
    obtain ⟨o, ho, hsig⟩ := List.mem_map.mp hsig
    exact coversName_eq_false_of_kept hc hd hl hsig.symm (hownUniques o ho) hkept

theorem Table.hasColumns_of_perm {t : Table} (h : t.columnNames.Perm target.columnNames)
    {columns : List ColumnDef} (hown : ∀ d ∈ columns, d ∈ target.definitions) :
    t.hasColumns columns = true := by
  simp only [hasColumns, List.all_eq_true, decide_eq_true_eq]
  intro d hd
  exact h.symm.subset (List.mem_map_of_mem (hown d hd))

/-- The statements for a changed table are all accepted, and make it what was expected. -/
theorem alterAll_diffTable (hc : current.IsUnambiguous) (ht : target.IsUnambiguous)
    (hnames : current.IsNamedFor server) (hown : target.ListsOwnColumns) :
    Statement.alterAll server (diffTable current target).statements current =
      some (current.migrated target) := by
  have hkey : Statement.alterAll server
      ((if primaryKeyChanged current target then current.primaryKey else none).toList.map fun k =>
        .dropPrimaryKey target.name k.name) current = some (current.keyDropped target) :=
    Statement.alterAll_dropPrimaryKey target.name _
  have hindices : Statement.alterAll server ((indicesNotIn current target).map fun i =>
      .dropIndex target.name i.name) (current.keyDropped target) =
        some (current.indicesDropped target) :=
    Statement.alterAll_dropIndices target.name (t := current.keyDropped target) hnames.indices _
  have huniques : Statement.alterAll server ((uniquesNotIn current target).map fun k =>
      .dropUnique target.name k.name) (current.indicesDropped target) =
        some (current.uniquesDropped target) :=
    Statement.alterAll_dropUniques target.name (t := current.indicesDropped target)
      hnames.uniques _
  have hcolumns : Statement.alterAll server ((columnsNotIn current target).map fun d =>
      .dropColumn target.name d.name) (current.uniquesDropped target) =
        some (current.columnsDropped target) :=
    Statement.alterAll_dropColumns target.name (t := current.uniquesDropped target) hc.columns
      target.lacks fun d hd hl => Table.covers_eq_false_of_kept hc.columns hown hd hl
  have hperm : (current.columnsAdded target).columnNames.Perm target.columnNames :=
    Table.columnNames_migrated_perm hc.columns ht.columns
  have hcolumns' : Statement.alterAll server ((columnsNotIn target current).map
      (.addColumn target.name)) (current.columnsDropped target) =
        some (current.columnsAdded target) :=
    Statement.alterAll_addColumns target.name
      (ht.columns.sublist (List.filter_sublist.map ColumnDef.name))
      (Table.name_notMem_columnsDropped hc.columns ht.columns)
  obtain ⟨hownKey, hownIndices, hownUniques⟩ := hown
  have hkey' : Statement.alterAll server
      ((if primaryKeyChanged current target then target.primaryKey else none).toList.map
        (.addPrimaryKey target.name)) (current.columnsAdded target) =
        some (current.keyAdded target) :=
    Statement.alterAll_replacePrimaryKey target.name rfl fun k hk =>
      Table.hasColumns_of_perm hperm (hownKey k hk)
  have hindices' : Statement.alterAll server ((indicesNotIn target current).map
      (.addIndex target.name)) (current.keyAdded target) = some (current.indicesAdded target) :=
    Statement.alterAll_addIndices target.name fun i hi =>
      Table.hasColumns_of_perm hperm (hownIndices i (List.mem_of_mem_filter hi))
  have huniques' : Statement.alterAll server ((uniquesNotIn target current).map
      (.addUnique target.name)) (current.indicesAdded target) = some (current.migrated target) := by
    rw [Table.migrated_eq]
    exact Statement.alterAll_addUniques target.name fun k hk =>
      Table.hasColumns_of_perm hperm (hownUniques k (List.mem_of_mem_filter hk))
  rw [diffTable_eq hc.columns ht.columns]
  exact Statement.alterAll_append (Statement.alterAll_append (Statement.alterAll_append
    (Statement.alterAll_append (Statement.alterAll_append (Statement.alterAll_append
      (Statement.alterAll_append hkey hindices) huniques) hcolumns) hcolumns') hkey') hindices')
    huniques'

end Migrated

end DeclarativeSql
