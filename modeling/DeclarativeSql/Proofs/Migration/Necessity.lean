import DeclarativeSql.Proofs.Migration.Persistence
import DeclarativeSql.Proofs.Migration.Reversal

/-!
# Plans without spare statements

No selection of the statements of a plan does what the plan does. Each drop is needed, because what
it drops would be left over or stand over a column that has to go; and as no drop is spared, the
sizes of the two results tell that nothing is left out of what is added.
-/
namespace DeclarativeSql

section Sublist

variable {α : Type} {xs ys : List α}

theorem eq_of_sublist_of_subset (h : xs.Sublist ys) (hn : ys.Nodup) (hsub : ys ⊆ xs) : xs = ys :=
  h.eq_of_length_le (List.subperm_of_subset hn hsub).length_le

theorem eq_or_sum_lt_of_sublist {w : α → Int} (h : xs.Sublist ys) (hn : ys.Nodup)
    (hpos : ∀ y ∈ ys, y ∉ xs → 0 < w y) : xs = ys ∨ (xs.map w).sum < (ys.map w).sum := by
  induction h with
  | slnil => exact .inl rfl
  | cons y h ih =>
    obtain ⟨hy, hn⟩ := List.nodup_cons.mp hn
    have hw := hpos y List.mem_cons_self fun hmem => hy (h.subset hmem)
    rw [List.map_cons, List.sum_cons]
    rcases ih hn fun z hz => hpos z (List.mem_cons_of_mem _ hz) with rfl | hlt
    · exact .inr (by omega)
    · exact .inr (by omega)
  | cons_cons y h ih =>
    obtain ⟨hy, hn⟩ := List.nodup_cons.mp hn
    have hrest := ih hn fun z hz hnot => by
      refine hpos z (List.mem_cons_of_mem _ hz) fun hmem => ?_
      rcases List.mem_cons.mp hmem with rfl | hmem
      · exact hy hz
      · exact hnot hmem
    rcases hrest with rfl | hlt
    · exact .inl rfl
    · refine .inr ?_
      rw [List.map_cons, List.map_cons, List.sum_cons, List.sum_cons]
      omega

end Sublist

theorem Table.nodup_creation {t : Table} (h : t.IsUnambiguous) : t.creation.Nodup := by
  have hindices : (t.indices.map (Statement.addIndex t.name)).Nodup :=
    h.indices.of_map.map fun i j hij => (Statement.addIndex.inj hij).2
  have huniques : (t.uniques.map (Statement.addUnique t.name)).Nodup :=
    h.uniques.of_map.map fun k l hkl => (Statement.addUnique.inj hkl).2
  cases hk : t.primaryKey with
  | none => simp [creation, List.nodup_append, hk, hindices, huniques]
  | some k => simp [creation, List.nodup_append, hk, hindices, huniques]

theorem TableDelta.nodup_statements {d : TableDelta}
    (hcolumns : (d.columnsToDrop.map ColumnDef.name).Nodup) (hcolumns' : d.columnsToAdd.Nodup)
    (hindices : (d.indicesToDrop.map Index.name).Nodup) (hindices' : d.indicesToAdd.Nodup)
    (huniques : (d.uniquesToDrop.map Key.name).Nodup) (huniques' : d.uniquesToAdd.Nodup) :
    d.statements.Nodup := by
  have hone : ∀ {k : Option Key} {f : Key → Statement}, (k.toList.map f).Nodup := by
    intro k f
    cases k <;> simp
  have hdrop : ∀ {α : Type} {xs : List α} {key : α → String} {f : String → Statement},
      (xs.map key).Nodup → f.Injective → (xs.map fun x => f (key x)).Nodup := by
    intro α xs key f hn hf
    have hmap := hn.map hf
    rwa [List.map_map] at hmap
  simp only [statements, List.nodup_append]
  refine ⟨⟨⟨⟨⟨⟨⟨hone, hdrop hindices ?_, ?_⟩, hdrop huniques ?_, ?_⟩, hdrop hcolumns ?_, ?_⟩,
    hcolumns'.map ?_, ?_⟩, hone, ?_⟩, hindices'.map ?_, ?_⟩, huniques'.map ?_, ?_⟩
  -- statements of one kind differ in what they are about, and those of two kinds always
  all_goals
    simp only [Function.Injective, List.mem_append, List.mem_map]
    grind

theorem nodup_statements {current target : Database} {delta : DatabaseDelta}
    (hdelta : diff current target = .ok delta)
    (hnames : ∀ t ∈ current.tables,
      (t.indices.map Index.name).Nodup ∧ (t.uniques.map Key.name).Nodup) :
    delta.statements.Nodup := by
  obtain ⟨hc, ht, -⟩ := diff_eq_ok_iff.mp hdelta
  refine statements_pairwise_of_table (R := (· ≠ ·)) (fun h he => h (he ▸ rfl)) hdelta ?_ ?_
  · intro t hm
    exact Table.nodup_creation (ht.tables t hm)
  · intro c hcm t hm _
    obtain ⟨hindices, huniques⟩ := hnames c hcm
    have htables := ht.tables t hm
    exact TableDelta.nodup_statements
      ((hc.tables c hcm).columns.sublist (List.filter_sublist.map _))
      (htables.columns.of_map.sublist List.filter_sublist)
      (hindices.sublist (List.filter_sublist.map _))
      (htables.indices.of_map.sublist List.filter_sublist)
      (huniques.sublist (List.filter_sublist.map _))
      (htables.uniques.of_map.sublist List.filter_sublist)

/-- The table has what the element can stay for. -/
def Table.Matches (t : Table) : Element → Prop
  | .table => True
  | .column d => t.lacks d = false
  | .primaryKey k => t.primaryKeySignature = some k.signature
  | .index i => i.signature ∈ t.indices.map Index.signature
  | .unique k => k.signature ∈ t.uniques.map Key.signature

theorem Table.matches_of_sameStructure {a b : Table} (h : a.sameStructure b = true) {e : Element}
    (he : a.Has e) : b.Matches e := by
  rw [sameStructure_eq] at h
  simp only [Bool.and_eq_true, beq_iff_eq, List.isPerm_iff, List.all_eq_true,
    Bool.not_eq_true'] at h
  obtain ⟨⟨⟨⟨-, hcolumns⟩, hkey⟩, hindices⟩, huniques⟩ := h
  cases e with
  | table => trivial
  | column d => exact hcolumns d he
  | primaryKey k =>
    rw [Matches, ← hkey, primaryKeySignature, show a.primaryKey = some k from he]
    rfl
  | index i => exact hindices.subset (List.mem_map_of_mem he)
  | unique k => exact huniques.subset (List.mem_map_of_mem he)

/-- A constraint that is dropped though it matches covers a replaced column. -/
theorem coversReplaced_of_isUnmatched {α σ : Type} [BEq σ] [LawfulBEq σ] {sig : α → σ}
    {columns : α → List ColumnDef} {own other : Table} {others : List α} {x : α}
    (h : isUnmatched sig columns own other others x = true) (hx : sig x ∈ others.map sig) :
    coversReplaced own other (columns x) = true := by
  by_contra hcovers
  rw [Bool.not_eq_true] at hcovers
  have hkept := isUnmatched_eq_false_iff.mpr ⟨hx, hcovers⟩
  rw [h] at hkept
  cases hkept

theorem coversReplaced_of_primaryKeyChanged {own other : Table} {k : Key}
    (h : primaryKeyChanged own other = true) (hk : own.primaryKey = some k)
    (hother : other.primaryKeySignature = some k.signature) :
    coversReplaced own other k.columns = true := by
  by_contra hcovers
  rw [Bool.not_eq_true] at hcovers
  have hown : own.primaryKeySignature = some k.signature := by
    rw [Table.primaryKeySignature, hk]
    rfl
  have hkept : primaryKeyChanged own other = false := by
    refine Table.primaryKeyChanged_eq_false_iff.mpr ⟨hown.trans hother.symm, ?_⟩
    intro k' hk'
    cases hk.symm.trans hk'
    exact hcovers
  rw [h] at hkept
  cases hkept

/-- What a change of a table drops, together with the reason. -/
theorem exists_drop_of_weight_nonpos {c t : Table} (hc : c.columnNames.Nodup)
    (ht : t.columnNames.Nodup) {s : Statement} (hs : s ∈ (diffTable c t).statements)
    (hweight : s.weight ≤ 0) :
    ∃ e, s = e.drop t.name ∧ c.Has e ∧
      (t.Matches e → coversReplaced c t e.columns = true) := by
  rw [diffTable_eq hc ht] at hs
  simp only [TableDelta.statements, List.mem_append, List.mem_map] at hs
  obtain (((((((⟨k, hk, rfl⟩ | ⟨i, hi, rfl⟩) | ⟨k, hk, rfl⟩) | ⟨d, hd, rfl⟩) | ⟨d, _, rfl⟩) |
    ⟨k, _, rfl⟩) | ⟨i, _, rfl⟩) | ⟨k, _, rfl⟩) := hs
  · obtain ⟨hchanged, hk⟩ := Option.ite_none_right_eq_some.mp (Option.mem_toList.mp hk)
    exact ⟨.primaryKey k, rfl, hk, coversReplaced_of_primaryKeyChanged hchanged hk⟩
  · obtain ⟨hi, hdropped⟩ := List.mem_filter.mp hi
    exact ⟨.index i, rfl, hi, coversReplaced_of_isUnmatched hdropped⟩
  · obtain ⟨hk, hdropped⟩ := List.mem_filter.mp hk
    exact ⟨.unique k, rfl, hk, coversReplaced_of_isUnmatched hdropped⟩
  · obtain ⟨hd, hlacks⟩ := List.mem_filter.mp hd
    refine ⟨.column d, rfl, hd, fun hmatches => ?_⟩
    have hmatches : t.lacks d = false := hmatches
    rw [show t.lacks d = true from hlacks] at hmatches
    cases hmatches
  all_goals simp [Statement.weight] at hweight

/-- Statements of a plan, in their order, that lead to the structure of the target. -/
structure IsShortcut (current target : Database) (delta : DatabaseDelta) (ss : List Statement)
    (result : Database) : Prop where
  compared : diff current target = .ok delta
  selected : ss.Sublist delta.statements
  run : Statement.run .strict ss current = some result
  same : result.sameStructure target = true

namespace IsShortcut

variable {current target result : Database} {delta : DatabaseDelta} {ss : List Statement}

theorem current_isUnambiguous (h : IsShortcut current target delta ss result) :
    current.IsUnambiguous := (diff_eq_ok_iff.mp h.compared).1

theorem target_isUnambiguous (h : IsShortcut current target delta ss result) :
    target.IsUnambiguous := (diff_eq_ok_iff.mp h.compared).2.1

theorem size_eq (h : IsShortcut current target delta ss result) : result.size = target.size :=
  Database.size_eq_of_sameStructure
    (Statement.nodup_names_of_run h.current_isUnambiguous.names h.run) h.target_isUnambiguous h.same

theorem dropTable_notMem (h : IsShortcut current target delta ss result) {t : Table}
    (ht : t ∈ target.tables) : .dropTable t.name ∉ ss := by
  intro hmem
  exact notMem_names_of_dropTable h.compared (h.selected.subset hmem) (List.mem_map_of_mem ht)

theorem dropTable_mem (h : IsShortcut current target delta ss result) {c : Table}
    (hc : c ∈ tablesNotIn current target) : .dropTable c.name ∈ ss := by
  by_contra hnot
  obtain ⟨hcm, hnone⟩ := List.mem_filter.mp hc
  have hhas : current.Has c.name .table := ⟨c, hcm, rfl, trivial⟩
  obtain ⟨u, hu, hn, -⟩ := Statement.has_of_run h.run hhas hnot hnot
  obtain ⟨o, ho, hon, -⟩ := Database.exists_of_sameStructure h.target_isUnambiguous h.same hu
  rw [Option.isNone_iff_eq_none, Database.table?_eq_none_iff] at hnone
  exact hnone (List.mem_map.mpr ⟨o, ho, hon.trans hn⟩)

section Tables

variable {c t : Table} (hc : c ∈ current.tables) (ht : t ∈ target.tables) (hn : c.name = t.name)
include hc ht hn

theorem matches_of_notMem (h : IsShortcut current target delta ss result) {e : Element}
    (he : c.Has e) (hnot : e.drop t.name ∉ ss) : t.Matches e := by
  obtain ⟨u, hu, hun, he⟩ :=
    Statement.has_of_run h.run ⟨c, hc, hn, he⟩ (h.dropTable_notMem ht) hnot
  obtain ⟨o, ho, hon, hsame⟩ :=
    Database.exists_of_sameStructure h.target_isUnambiguous h.same hu
  obtain rfl := List.inj_on_of_nodup_map h.target_isUnambiguous.names ho ht (hon.trans hun)
  exact Table.matches_of_sameStructure hsame he

/-- An element goes if it has no counterpart, or if it stands over a column that is replaced. -/
theorem drop_mem (h : IsShortcut current target delta ss result) {e : Element} (he : c.Has e)
    (hgoes : t.Matches e → coversReplaced c t e.columns = true) : e.drop t.name ∈ ss := by
  by_contra hnot
  have hcovers := hgoes (h.matches_of_notMem hc ht hn he hnot)
  obtain ⟨d, hd, hreplaced⟩ := List.any_eq_true.mp hcovers
  obtain ⟨o, ho, hon, hlacks⟩ := exists_lacks_of_isReplaced hreplaced
  have hdrop : .dropColumn t.name o.name ∈ ss := by
    by_contra hcolumn
    have hmatches : t.lacks o = false := h.matches_of_notMem hc ht hn (e := .column o) ho hcolumn
    rw [hlacks] at hmatches
    cases hmatches
  -- when the column is dropped the element still stands over it
  obtain ⟨pre, post, rfl⟩ := List.append_of_mem hdrop
  refine Statement.name_ne_of_run_dropColumn h.current_isUnambiguous.names h.run
    ⟨c, hc, hn, he⟩ ?_ ?_ hd hon.symm
  · exact fun hmem => h.dropTable_notMem ht (List.mem_append_left _ hmem)
  · exact fun hmem => hnot (List.mem_append_left _ hmem)

end Tables

theorem mem_of_mem_changeStatements (h : IsShortcut current target delta ss result) {t : Table}
    (ht : t ∈ target.tables) {s : Statement} (hs : s ∈ changeStatements current t)
    (hweight : s.weight ≤ 0) : s ∈ ss := by
  obtain ⟨c, hcur, hs⟩ := mem_changeStatements hs
  obtain ⟨hcm, hn⟩ := h.current_isUnambiguous.table?_eq_some_iff.mp hcur
  obtain ⟨hcn, htn⟩ := nodup_columnNames_of_diff h.compared hcur ht
  obtain ⟨e, rfl, he, hgoes⟩ := exists_drop_of_weight_nonpos hcn htn hs hweight
  exact h.drop_mem hcm ht hn he hgoes

end IsShortcut

theorem Table.weight_pos_of_mem_creation {t : Table} {s : Statement} (h : s ∈ t.creation) :
    0 < s.weight := by
  simp only [creation, List.mem_append, List.mem_map, List.mem_singleton] at h
  rcases h with ((rfl | ⟨_, _, rfl⟩) | ⟨_, _, rfl⟩) | ⟨_, _, rfl⟩
  · simp only [Statement.weight]
    omega
  all_goals simp [Statement.weight]

/-- The tables of the current database that have to go are dropped at first. -/
def dropStatements (current target : Database) : List Statement :=
  (tablesNotIn current target).map fun t => .dropTable t.name

def laterStatements (current target : Database) : List Statement :=
  (tablesNotIn target current).flatMap Table.creation ++
    target.tables.flatMap (changeStatements current)

section Plan

variable {current target result : Database} {delta : DatabaseDelta} {ss later : List Statement}

theorem statements_eq_append (hdelta : diff current target = .ok delta) :
    delta.statements = dropStatements current target ++ laterStatements current target := by
  rw [statements_eq hdelta, List.append_assoc]
  rfl

theorem nodup_dropStatements (hc : current.IsUnambiguous) :
    (dropStatements current target).Nodup := by
  have hnames := hc.names.sublist ((List.filter_sublist (l := current.tables)
    (p := fun t => (target.table? t.name).isNone)).map Table.name)
  have hdrops := hnames.map (f := Statement.dropTable) fun a b h => Statement.dropTable.inj h
  rwa [List.map_map] at hdrops

theorem table_of_mem_laterStatements {s : Statement} (hs : s ∈ laterStatements current target) :
    s.table ∈ target.tables.map Table.name := by
  rcases List.mem_append.mp hs with hs | hs
  · exact (table_of_mem_creations hs).1
  · exact (table_of_mem_changes hs).1

theorem dropTable_notMem_laterStatements (hdelta : diff current target = .ok delta)
    (name : String) : .dropTable name ∉ laterStatements current target := by
  intro hmem
  have hplan : .dropTable name ∈ delta.statements := by
    rw [statements_eq_append hdelta]
    exact List.mem_append_right _ hmem
  exact notMem_names_of_dropTable hdelta hplan (table_of_mem_laterStatements hmem)

theorem isShortcut_statements (hdelta : diff current target = .ok delta)
    (htarget : target.constraintsAreLocal)
    (hnames : ∀ t ∈ current.tables,
      (t.indices.map Index.name).Nodup ∧ (t.uniques.map Key.name).Nodup) :
    IsShortcut current target delta delta.statements
      (current.migratedBy target target.tables) := by
  obtain ⟨hc, ht, -⟩ := diff_eq_ok_iff.mp hdelta
  have hrun := run_statements hc ht
    (fun t hm => ⟨(hnames t hm).1, fun _ : Server.strict = .strict => (hnames t hm).2⟩)
    htarget hdelta
  have hagrees := migratedBy_agrees hc ht fun c hm t _ _ => .of_nodup (hnames c hm).2
  exact ⟨hdelta, .refl _, hrun, hagrees.sameStructure ht⟩

namespace IsShortcut

/-- No table that has to go is left out, so only what comes later can be thinned. -/
theorem exists_later (h : IsShortcut current target delta ss result) :
    ∃ later, later.Sublist (laterStatements current target) ∧
      ss = dropStatements current target ++ later := by
  have hselected := h.selected
  rw [statements_eq_append h.compared] at hselected
  obtain ⟨drops, later, hss, hdrops, hlater⟩ := List.sublist_append_iff.mp hselected
  refine ⟨later, hlater, ?_⟩
  have hall : dropStatements current target ⊆ drops := by
    intro s hs
    obtain ⟨c, hcm, rfl⟩ := List.mem_map.mp hs
    have hmem := h.dropTable_mem hcm
    rw [hss, List.mem_append] at hmem
    rcases hmem with hmem | hmem
    · exact hmem
    · exact absurd (hlater.subset hmem) (dropTable_notMem_laterStatements h.compared c.name)
  rw [hss, eq_of_sublist_of_subset hdrops (nodup_dropStatements h.current_isUnambiguous) hall]

theorem weight_pos_of_notMem
    (h : IsShortcut current target delta (dropStatements current target ++ later) result)
    {s : Statement} (hs : s ∈ laterStatements current target) (hnot : s ∉ later) :
    0 < s.weight := by
  rcases List.mem_append.mp hs with hcreation | hchange
  · obtain ⟨t, -, hcreation⟩ := List.mem_flatMap.mp hcreation
    exact Table.weight_pos_of_mem_creation hcreation
  · obtain ⟨t, ht, hchange⟩ := List.mem_flatMap.mp hchange
    by_contra hweight
    have hmem := h.mem_of_mem_changeStatements ht hchange (by omega)
    rcases List.mem_append.mp hmem with hdrop | hlater
    · obtain ⟨c, -, rfl⟩ := List.mem_map.mp hdrop
      exact dropTable_notMem_laterStatements h.compared c.name hs
    · exact hnot hlater

/-- The whole plan is the only selection that leads to the target. -/
theorem eq_statements (h : IsShortcut current target delta ss result)
    (htarget : target.constraintsAreLocal)
    (hnames : ∀ t ∈ current.tables,
      (t.indices.map Index.name).Nodup ∧ (t.uniques.map Key.name).Nodup) :
    ss = delta.statements := by
  have hplan := statements_eq_append h.compared
  have hnone := dropTable_notMem_laterStatements h.compared
  have hnodup := nodup_statements h.compared hnames
  rw [hplan] at hnodup
  obtain ⟨later, hlater, rfl⟩ := h.exists_later
  have hfull := isShortcut_statements h.compared htarget hnames
  -- the plan and the selection go on from one and the same database
  have hrun := hfull.run
  rw [hplan] at hrun
  obtain ⟨mid, hmid, hrest⟩ := Statement.run_append_eq_some_iff.mp hrun
  obtain ⟨mid', hmid', hrest'⟩ := Statement.run_append_eq_some_iff.mp h.run
  cases hmid.symm.trans hmid'
  have hsize := Statement.size_of_run hrest hnone
  have hsize' := Statement.size_of_run hrest' fun name hmem => hnone name (hlater.subset hmem)
  have hequal := hfull.size_eq.trans h.size_eq.symm
  have hpos : ∀ s ∈ laterStatements current target, s ∉ later → 0 < s.weight :=
    fun _ hs hnot => h.weight_pos_of_notMem hs hnot
  rcases eq_or_sum_lt_of_sublist hlater (List.nodup_append.mp hnodup).2.1 hpos with rfl | hlt
  · exact hplan.symm
  · omega

end IsShortcut

end Plan

/-- A plan has no statement to spare. Without any one of them, or with only some of them left, the
server refuses one or the result has not the structure of the target. -/
theorem plan_needs_every_statement {current target : Database} {delta : DatabaseDelta}
    (hdelta : diff current target = .ok delta) (htarget : target.constraintsAreLocal)
    (hnames : ∀ t ∈ current.tables,
      (t.indices.map Index.name).Nodup ∧ (t.uniques.map Key.name).Nodup) :
    (∀ i < delta.statements.length, ∀ result,
      Statement.run .strict (delta.statements.eraseIdx i) current = some result →
        result.sameStructure target = false) ∧
    ∀ ss, ss.Sublist delta.statements →
      ((∃ result, Statement.run .strict ss current = some result ∧
        result.sameStructure target = true) ↔ ss = delta.statements) := by
  constructor
  · intro i hi result hrun
    by_contra hsame
    rw [Bool.not_eq_false] at hsame
    have hshortcut : IsShortcut current target delta (delta.statements.eraseIdx i) result :=
      ⟨hdelta, List.eraseIdx_sublist _ _, hrun, hsame⟩
    have hlength := congrArg List.length (hshortcut.eq_statements htarget hnames)
    rw [List.length_eraseIdx_of_lt hi] at hlength
    omega
  · intro ss hss
    constructor
    · rintro ⟨result, hrun, hsame⟩
      exact IsShortcut.eq_statements ⟨hdelta, hss, hrun, hsame⟩ htarget hnames
    · rintro rfl
      have hplan := isShortcut_statements hdelta htarget hnames
      exact ⟨_, hplan.run, hplan.same⟩

namespace Readings

/-- The key and the index are the same before and after, and still have to go for a while. -/
theorem plan_needs_every_statement_of_column : ∃ delta,
    diff (database .int32 "notes") (database .int64 "people") = .ok delta ∧
      delta.statements.length = 8 ∧
      (∀ i < delta.statements.length, ∀ result,
        Statement.run .strict (delta.statements.eraseIdx i) (database .int32 "notes") =
            some result →
          result.sameStructure (database .int64 "people") = false) ∧
      ∀ ss, ss.Sublist delta.statements →
        ((∃ result, Statement.run .strict ss (database .int32 "notes") = some result ∧
          result.sameStructure (database .int64 "people") = true) ↔ ss = delta.statements) :=
  ⟨_, rfl, rfl,
    plan_needs_every_statement rfl (by unfold Database.constraintsAreLocal; decide) (by decide)⟩

end Readings

end DeclarativeSql
