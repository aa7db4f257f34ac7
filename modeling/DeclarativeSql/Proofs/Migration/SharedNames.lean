import DeclarativeSql.Proofs.Migration.IndexOrder

/-!
# Plans under shared names

Where all tables share the names of indices, a plan reaches its target exactly if each index finds
its name free.
-/
namespace DeclarativeSql

/-- When an index is added no index of the database before has its name any more. -/
def NamesAreFree (current : Database) (ss : List Statement) : Prop :=
  ∀ pre post table i, ss = pre ++ Statement.addIndex table i :: post →
    ∀ u j, current.Holds u j → j.name = i.name →
      Statement.dropTable u ∈ pre ∨ Statement.dropIndex u j.name ∈ pre

/-- When the index is added an index of the database before still has its name. -/
def IsBlocked (current : Database) (ss : List Statement) (table : String) (i : Index) : Prop :=
  ∃ pre post, ss = pre ++ Statement.addIndex table i :: post ∧
    ∃ u j, current.Holds u j ∧ j.name = i.name ∧
      Statement.dropTable u ∉ pre ∧ Statement.dropIndex u j.name ∉ pre

theorem namesAreFree_iff {current : Database} {ss : List Statement} :
    NamesAreFree current ss ↔ ∀ table i, ¬ IsBlocked current ss table i := by
  constructor
  · rintro h table i ⟨pre, post, hss, u, j, hj, hn, htable, hindex⟩
    rcases h pre post table i hss u j hj hn with hd | hd
    · exact htable hd
    · exact hindex hd
  · intro h pre post table i hss u j hj hn
    by_contra hd
    rw [not_or] at hd
    exact h table i ⟨pre, post, hss, u, j, hj, hn, hd.1, hd.2⟩

open Classical in
/-- What is not blocked. -/
noncomputable def isFree (current : Database) (ss : List Statement) (table : String) (i : Index) :
    Bool :=
  decide (¬ IsBlocked current ss table i)

theorem isFree_eq_true_iff {current : Database} {ss : List Statement} {table : String} {i : Index} :
    isFree current ss table i = true ↔ ¬ IsBlocked current ss table i := by
  simp [isFree]

theorem isFree_eq_false_iff {current : Database} {ss : List Statement} {table : String}
    {i : Index} : isFree current ss table i = false ↔ IsBlocked current ss table i := by
  simp [isFree]

namespace IndexPlan

variable {current target : Database} {ss pre post : List Statement}

section Positions

variable {table : String} {i : Index}

theorem notMem_of_split (h : IndexPlan current target ss)
    (hss : ss = pre ++ .addIndex table i :: post) :
    .addIndex table i ∉ pre ∧ .addIndex table i ∉ post ∧
      ∀ name, .dropIndex table name ∉ post := by
  have hp := h.ordered
  rw [hss, List.pairwise_append, List.pairwise_cons] at hp
  obtain ⟨-, ⟨hpost, -⟩, hpre⟩ := hp
  refine ⟨fun hm => ?_, fun hm => ?_, fun name hm => ?_⟩
  · exact ((hpre _ hm _ (List.mem_cons_self ..)).1 table i rfl).1 rfl
  · exact ((hpost _ hm).1 table i rfl).1 rfl
  · exact ((hpost _ hm).1 table i rfl).2 name rfl

theorem not_isBlocked_of_holds (h : IndexPlan current target ss)
    (hnames : current.indexNames.Nodup) (hi : current.Holds table i) :
    ¬ IsBlocked current ss table i := by
  rintro ⟨pre, post, hss, u, j, hj, hn, -, hindex⟩
  obtain ⟨rfl, rfl⟩ := Database.eq_of_name_eq hnames hj hi hn
  have hdrop := h.replaced (by simp [hss]) hi
  rw [hss, List.mem_append, List.mem_cons] at hdrop
  rcases hdrop with hd | hd | hd
  · exact hindex hd
  · cases hd
  · exact (h.notMem_of_split hss).2.2 _ hd

end Positions

/-- At its turn an index that is blocked finds its name taken. -/
theorem exists_of_isBlocked (h : IndexPlan current target ss)
    (hnames : (current.tables.map Table.name).Nodup) {table : String} {i : Index}
    (hss : ss = pre ++ .addIndex table i :: post) (hi : IsBlocked current ss table i)
    {mid : Database} (hmid : Statement.run .lenient pre current = some mid) :
    ∃ u j, current.Holds u j ∧ mid.Holds u j ∧ j.name = i.name := by
  obtain ⟨pre', post', hss', u, j, hj, hn, htable, hindex⟩ := hi
  have hpre : pre' = pre := by
    have heq := hss'.symm.trans hss
    exact (List.append_cons_inj_of_notMem (h.notMem_of_split hss').1
      (h.notMem_of_split hss').2.1).mp heq |>.1
  subst hpre
  exact ⟨u, j, hj, Statement.holds_of_run hnames hmid hj htable hindex, hn⟩

theorem not_holds_of_not_isBlocked (h : IndexPlan current target ss)
    (hnames : (current.tables.map Table.name).Nodup) (htarget : target.indexNames.Nodup)
    {table : String} {i : Index} (hss : ss = pre ++ .addIndex table i :: post)
    (hi : ¬ IsBlocked current ss table i) {mid : Database}
    (hmid : Statement.run .lenient pre current = some mid) {u : String} {j : Index}
    (hj : mid.Holds u j) : j.name ≠ i.name := by
  intro hn
  rcases Statement.origin_of_run hnames hmid hj with hadd | ⟨hj, htable, hindex⟩
  · have hj : target.Holds u j := h.added (by simp [hss, hadd])
    have hi : target.Holds table i := h.added (by simp [hss])
    obtain ⟨rfl, rfl⟩ := Database.eq_of_name_eq htarget hj hi hn
    exact (h.notMem_of_split hss).1 hadd
  · exact hi ⟨pre, post, hss, u, j, hj, hn, htable, hindex⟩

theorem eq_of_dropIndex (h : IndexPlan current target ss)
    (hnames : (current.tables.map Table.name).Nodup) (hcurrent : current.indexNames.Nodup)
    {table name : String} (hss : ss = pre ++ .dropIndex table name :: post) {mid : Database}
    (hmid : Statement.run .lenient pre current = some mid) {u : String} {j : Index}
    (hj : mid.Holds u j) (hfree : ¬ IsBlocked current ss u j) (hn : j.name = name) :
    u = table := by
  have hmem : .dropIndex table name ∈ ss := by simp [hss]
  obtain ⟨i, hi, hin⟩ := h.dropped hmem
  rcases Statement.origin_of_run hnames hmid hj with hadd | ⟨hj, -, -⟩
  · obtain ⟨p₁, p₂, rfl⟩ := List.append_of_mem hadd
    refine absurd ?_ hfree
    refine ⟨p₁, p₂ ++ .dropIndex table name :: post, by simp [hss], table, i, hi,
      hin.trans hn.symm, ?_, ?_⟩
    · intro hd
      exact h.stays_of_dropped hmem (by simp [hss, hd])
    · intro hd
      have hp := h.ordered
      rw [hss, List.pairwise_append] at hp
      exact (hp.2.2 _ (List.mem_append_left _ hd) _ (List.mem_cons_self ..)).2 table i.name rfl
        (hin ▸ rfl)
  · exact (Database.eq_of_name_eq hcurrent hj hi (hn.trans hin.symm)).1

/-- One statement of a plan, on what is left without the indices that are blocked. -/
theorem applyShared_thin (h : IndexPlan current target ss)
    (hnames : (current.tables.map Table.name).Nodup) (hcurrent : current.indexNames.Nodup)
    (htarget : target.indexNames.Nodup) {s : Statement} (hss : ss = pre ++ s :: post)
    {mid after : Database} (hmid : Statement.run .lenient pre current = some mid)
    (hs : s.apply .lenient mid = some after) :
    s.applyShared (mid.thin (isFree current ss)) = some (after.thin (isFree current ss)) := by
  cases s with
  | addIndex table i =>
    by_cases hi : IsBlocked current ss table i
    · obtain ⟨u, j, hj, hmidj, hn⟩ := h.exists_of_isBlocked hnames hss hi hmid
      have htaken : i.name ∈ (mid.thin (isFree current ss)).indexNames := by
        refine Database.mem_indexNames_iff.mpr ⟨u, j, ?_, hn⟩
        exact (Database.holds_thin_iff _).mpr
          ⟨hmidj, isFree_eq_true_iff.mpr (h.not_isBlocked_of_holds hcurrent hj)⟩
      have hthin := Statement.thin_of_apply_addIndex (isFree_eq_false_iff.mpr hi) hs
      exact (if_pos htaken).trans (congrArg some hthin.symm)
    · have hfree : i.name ∉ (mid.thin (isFree current ss)).indexNames := by
        intro hn
        obtain ⟨u, j, hj, hn⟩ := Database.mem_indexNames_iff.mp hn
        exact h.not_holds_of_not_isBlocked hnames htarget hss hi hmid
          ((Database.holds_thin_iff _).mp hj).1 hn
      exact (if_neg hfree).trans (Statement.apply_addIndex_thin (isFree_eq_true_iff.mpr hi) hs)
  | dropIndex table name =>
    refine congrArg some (Statement.dropIndexNamed_thin
      (Statement.nodup_names_of_run hnames hmid) ?_ hs)
    intro u j hj hfree hn
    exact h.eq_of_dropIndex hnames hcurrent hss hmid hj (isFree_eq_true_iff.mp hfree) hn
  | _ => exact Statement.apply_thin (by simp) (by simp) hs

/-- Running a plan under shared names leaves out the indices that are blocked, and nothing else. -/
theorem runShared_eq_thin (h : IndexPlan current target ss)
    (hnames : (current.tables.map Table.name).Nodup) (hcurrent : current.indexNames.Nodup)
    (htarget : target.indexNames.Nodup) (hss : ss = pre ++ post) {after : Database}
    (hafter : Statement.run .lenient pre current = some after) :
    Statement.runShared pre current = some (after.thin (isFree current ss)) := by
  induction pre using List.reverseRecOn generalizing post after with
  | nil =>
    cases hafter
    have hkept : current.thin (isFree current ss) = current :=
      Database.thin_eq_self fun table i hi =>
        isFree_eq_true_iff.mpr (h.not_isBlocked_of_holds hcurrent hi)
    rw [hkept]
    rfl
  | append_singleton pre s ih =>
    obtain ⟨mid, hmid, hs⟩ := Statement.run_append_eq_some_iff.mp hafter
    rw [Statement.run_singleton] at hs
    rw [List.append_assoc] at hss
    have hmidThin := ih hss hmid
    have hstep := h.applyShared_thin hnames hcurrent htarget hss hmid hs
    rw [Statement.runShared] at hmidThin ⊢
    rw [List.foldlM_append, hmidThin]
    simpa using hstep

/-- A blocked index would be in the result if names were not shared. -/
theorem holds_of_isBlocked (h : IndexPlan current target ss)
    (hnames : (current.tables.map Table.name).Nodup) {table : String} {i : Index}
    (hi : IsBlocked current ss table i) {after : Database}
    (hafter : Statement.run .lenient ss current = some after) : after.Holds table i := by
  obtain ⟨pre, post, hss, -⟩ := hi
  have hadd : .addIndex table i ∈ ss := by simp [hss]
  have htable : .dropTable table ∉ post := by
    intro hd
    exact h.stays_of_added hadd (by simp [hss, hd])
  have hindex : .dropIndex table i.name ∉ post := (h.notMem_of_split hss).2.2 i.name
  rw [hss, ← List.singleton_append, ← List.append_assoc] at hafter
  obtain ⟨mid, hmid, hpost⟩ := Statement.run_append_eq_some_iff.mp hafter
  obtain ⟨before, hbefore, hs⟩ := Statement.run_append_eq_some_iff.mp hmid
  rw [Statement.run_singleton] at hs
  have hholds : mid.Holds table i :=
    ((Statement.holds_of_apply (Statement.nodup_names_of_run hnames hbefore) hs).2 table i).mpr
      (.inr rfl)
  exact Statement.holds_of_run (Statement.nodup_names_of_run hnames hmid) hpost hholds htable hindex

end IndexPlan

section Result

variable {current target : Database}

theorem Database.exists_of_sameStructure {a b : Database} (hb : b.IsUnambiguous)
    (h : a.sameStructure b = true) {t : Table} (ht : t ∈ a.tables) :
    ∃ o ∈ b.tables, o.name = t.name ∧ t.sameStructure o = true := by
  simp only [Database.sameStructure, Bool.and_eq_true, List.all_eq_true] at h
  have hsame := h.2 t ht
  split at hsame
  next o ho =>
    obtain ⟨hom, hn⟩ := hb.table?_eq_some_iff.mp ho
    exact ⟨o, hom, hn, hsame⟩
  next => cases hsame

theorem nodup_columnNames_of_mem_migratedBy (hc : current.IsUnambiguous)
    (ht : target.IsUnambiguous) {t : Table}
    (hm : t ∈ (current.migratedBy target target.tables).tables) : t.columnNames.Nodup := by
  rcases (mem_migratedBy_iff ht).mp hm with ⟨c, hcm, o, ho, -, rfl⟩ | ⟨o, hom, rfl⟩
  · exact (Table.columnNames_migrated_perm (hc.tables c hcm).columns
      (ht.tables o ho).columns).nodup_iff.mpr (ht.tables o ho).columns
  · exact (o.recreated_agrees.isUnambiguous (ht.tables o (List.mem_of_mem_filter hom))).columns

theorem indices_perm_of_mem_migratedBy (hc : current.IsUnambiguous) (ht : target.IsUnambiguous)
    {t o : Table} (hm : t ∈ (current.migratedBy target target.tables).tables)
    (ho : o ∈ target.tables) (hn : o.name = t.name) :
    (t.indices.map Index.signature).Perm (o.indices.map Index.signature) := by
  rcases (mem_migratedBy_iff ht).mp hm with ⟨c, hcm, o', ho', hn', rfl⟩ | ⟨o', hom, rfl⟩
  · obtain rfl := List.inj_on_of_nodup_map ht.names ho ho' (hn.trans hn')
    exact Table.indices_migrated_perm (hc.tables c hcm) (ht.tables o ho)
  · obtain rfl := List.inj_on_of_nodup_map ht.names ho (List.mem_of_mem_filter hom) hn
    exact o.recreated_agrees.indices

/-- Leaving out indices does no harm only if none is left out and every unique that should stay is
left. -/
theorem sameStructure_thin_iff (hc : current.IsUnambiguous) (ht : target.IsUnambiguous)
    (keep : String → Index → Bool) :
    ((current.migratedBy target target.tables).thin keep).sameStructure target = true ↔
      (∀ table i, (current.migratedBy target target.tables).Holds table i → keep table i = true) ∧
        ∀ c ∈ current.tables, ∀ t ∈ target.tables, c.name = t.name → c.KeepsUniques t := by
  constructor
  · intro hsame
    have hagrees : ∀ t ∈ (current.migratedBy target target.tables).tables,
        ∃ o ∈ target.tables, o.name = t.name ∧ (t.thin keep).Agrees o := by
      intro t hm
      obtain ⟨o, ho, hn, h⟩ :=
        Database.exists_of_sameStructure ht hsame (List.mem_map_of_mem hm)
      have hcolumns : (t.thin keep).columnNames.Nodup :=
        nodup_columnNames_of_mem_migratedBy hc ht (t := t) hm
      exact ⟨o, ho, hn, ((Table.sameStructure_iff hcolumns (ht.tables o ho).columns).mp h).2⟩
    constructor
    · rintro _ i ⟨t, hm, rfl, hi⟩
      obtain ⟨o, ho, hn, h⟩ := hagrees t hm
      have hlength : (t.indices.filter (keep t.name)).length = t.indices.length := by
        have hthin := h.indices.length_eq
        have hfull := (indices_perm_of_mem_migratedBy hc ht hm ho hn).length_eq
        rw [List.length_map, List.length_map] at hthin hfull
        exact hthin.trans hfull.symm
      exact List.length_filter_eq_length_iff.mp hlength i hi
    · intro c hcm t htm hn
      have hm : c.migrated t ∈ (current.migratedBy target target.tables).tables :=
        (mem_migratedBy_iff ht).mpr (.inl ⟨c, hcm, t, htm, hn, rfl⟩)
      obtain ⟨o, ho, hon, h⟩ := hagrees _ hm
      obtain rfl := List.inj_on_of_nodup_map ht.names ho htm (hon.trans hn)
      exact (Table.uniques_migrated_perm_iff (hc.tables c hcm) (ht.tables o ho)).mp h.uniques
  · rintro ⟨hkeep, hkeeps⟩
    rw [Database.thin_eq_self hkeep]
    exact (migratedBy_agrees hc ht hkeeps).sameStructure ht

theorem Database.nodup_names_of_indexNames {db : Database} (h : db.indexNames.Nodup) {t : Table}
    (ht : t ∈ db.tables) : (t.indices.map Index.name).Nodup :=
  (List.nodup_flatMap.mp h).1 t ht

end Result

/-- Under shared names of indices a plan reaches its target exactly if every index finds its name
free, and no unique that stays has the name of one that is dropped from its table. -/
theorem sharedPlan_reaches_target_iff {current target : Database} {delta : DatabaseDelta}
    (hdelta : diff current target = .ok delta) (hlocal : target.constraintsAreLocal)
    (hcurrent : current.indexNames.Nodup) (htarget : target.indexNames.Nodup) :
    ∃ result, Statement.runShared delta.statements current = some result ∧
      (result.sameStructure target = true ↔ NamesAreFree current delta.statements ∧
        ∀ c ∈ current.tables, ∀ t ∈ target.tables, c.name = t.name → c.KeepsUniques t) := by
  obtain ⟨hc, ht, -⟩ := diff_eq_ok_iff.mp hdelta
  have hindices : ∀ t ∈ current.tables, (t.indices.map Index.name).Nodup := fun _ hm =>
    Database.nodup_names_of_indexNames hcurrent hm
  have hplan : IndexPlan current target delta.statements := indexPlan_of_diff hdelta hindices
  have hrun : Statement.run .lenient delta.statements current =
      some (current.migratedBy target target.tables) :=
    run_statements hc ht (fun t hm => ⟨hindices t hm, by simp⟩) hlocal hdelta
  have hshared := hplan.runShared_eq_thin hc.names hcurrent htarget
    (List.append_nil delta.statements).symm hrun
  refine ⟨_, hshared, ?_⟩
  rw [sameStructure_thin_iff hc ht, namesAreFree_iff]
  refine and_congr_left' ⟨?_, ?_⟩
  · intro hkeep table i hi
    have hfree := hkeep table i (hplan.holds_of_isBlocked hc.names hi hrun)
    exact isFree_eq_true_iff.mp hfree hi
  · intro hfree table i _
    exact isFree_eq_true_iff.mpr (hfree table i)

namespace Numbers

/-- An index of another name is taken over its column. -/
theorem sharedPlan_reaches_added_index_iff :
    ∃ delta, diff (database [index "x" "a"]) (database [index "y" "a", index "z" "b"]) = .ok delta ∧
      ∃ result, Statement.runShared delta.statements (database [index "x" "a"]) = some result ∧
        (result.sameStructure (database [index "y" "a", index "z" "b"]) = true ↔
          NamesAreFree (database [index "x" "a"]) delta.statements ∧
            ∀ c ∈ (database [index "x" "a"]).tables,
              ∀ t ∈ (database [index "y" "a", index "z" "b"]).tables,
                c.name = t.name → c.KeepsUniques t) :=
  ⟨_, rfl, sharedPlan_reaches_target_iff rfl (by unfold Database.constraintsAreLocal; decide)
    (by decide) (by decide)⟩

/-- The index `x` is kept over `a` because its signature is asked for there under another name. The
index `x` over `b` is then never made. -/
theorem sharedPlan_misses_target : ∃ delta,
    diff (database [index "x" "a"]) (database [index "y" "a", index "x" "b"]) = .ok delta ∧
      (database [index "x" "a"]).constraintsAreLocal ∧
      (database [index "y" "a", index "x" "b"]).constraintsAreLocal ∧
      (database [index "x" "a"]).indexNames.Nodup ∧
      (database [index "y" "a", index "x" "b"]).indexNames.Nodup ∧
      ∃ result, Statement.runShared delta.statements (database [index "x" "a"]) = some result ∧
        result.sameStructure (database [index "y" "a", index "x" "b"]) = false := by
  refine ⟨_, rfl, ?_, ?_, by decide, by decide, _, rfl, by decide⟩
  · unfold Database.constraintsAreLocal
    decide
  · unfold Database.constraintsAreLocal
    decide

end Numbers

end DeclarativeSql
